import Sqlery.Scheduling.Advancing

/-!
# Processing due tasks

Whatever a scheduler meets while it processes its copies of due tasks, between
two of them its transactions are over.
-/

namespace Sqlery.Scheduling

open ReadCommitted
open Script

/-! ## Processing a task -/

section Process

variable {cfg : Config} {call : Call} {noted : List Write} {copy : Task}

/-- Between two tasks. -/
def Between (noted : List Write) (state : Loc) : Prop :=
  ∃ written, Idle noted written state

theorem Between.rolledBack {state : Loc} (between : Between noted state) :
    Between noted state.rolledBack := by
  obtain ⟨written, idle⟩ := between
  exact ⟨written, idle.rolledBack⟩

theorem Advanced.between {next : Time} {written : List Write} {state : Loc}
    (advanced : Advanced copy next noted written state) :
    Between noted state := by
  obtain ⟨writes, idle, _⟩ := advanced
  exact ⟨written ++ writes, idle⟩

theorem hasPending_spec {fails : Loc → Prop} {task : Nat}
    (isStandalone : cfg.backend = .standalone) :
    (scheduler cfg).Spec call (fun _ => Between noted)
      (hasPendingJobForScheduledTask cfg task) (fun _ _ => Between noted)
      (fun _ => fails) := by
  have reads : (scheduler cfg).Spec call (fun _ => Between noted)
      (read (isPending task) : Sql Bool) (fun _ _ => Between noted)
      (fun _ _ => False) := read_spec
  simp only [hasPendingJobForScheduledTask, isStandalone]
  apply Setting.Spec.strengthen
    (session_spec reads (fun _ _ => Between.rolledBack)
      fun _ failed => failed)
  · exact fun _ _ _ _ between => between
  · exact fun _ _ _ failed => failed.elim

/-- The transaction of `create_job`. -/
theorem createJob_spec (isStandalone : cfg.backend = .standalone)
    (isScheduler : call.OfScheduler) (isCopy : Copy call noted copy)
    (notCron : cfg.isCron copy = false) :
    (scheduler cfg).Spec call (fun _ => Between noted)
      (createJob cfg copy.jobSpec) (fun _ _ => Between noted)
      (fun _ => Between noted) := by
  have inserts : (scheduler cfg).Spec call (fun _ => Between noted)
      (insertJob cfg copy.jobSpec)
      (fun job _ state => job.of copy.id = true ∧
        state.pending = [.insertJob job] ∧ state.noted = noted)
      (fun _ => Between noted) := by
    apply insertJob_spec scheduler_ofTasks local_stable
      (fun job => local_stable) local_stable
    · intro db state locks between
      obtain ⟨written, idle⟩ := between
      exact ⟨written, by simp [Local.extend, idle.pending], idle.noted,
        idle.written⟩
    · intro db state id locks between
      obtain ⟨written, idle⟩ := between
      refine ⟨by simp [TaskJob.of, Task.jobSpec], ?_, idle.noted⟩
      simp [Local.extend, idle.pending]
  simp only [createJob, isStandalone]
  apply session_spec
  · apply Setting.Spec.bind local_stable inserts
    intro job
    apply Setting.Spec.fact
    intro isJob
    have commits : (scheduler cfg).Spec call
        (fun _ state =>
          state.pending = [.insertJob job] ∧ state.noted = noted)
        (commit : Sql Unit) (fun _ _ => Between noted)
        (fun _ => Between noted) := by
      apply Setting.Spec.commit local_stable local_stable
      intro db state _ _ holds
      obtain ⟨pending, isNoted⟩ := holds
      refine ⟨⟨isScheduler, ?_⟩, _, rfl, isNoted, rfl⟩
      rw [pending, isNoted]
      exact .creates copy job isCopy notCron isJob
    apply Setting.Spec.bind local_stable commits
    intro _
    exact refresh_spec job
  · exact fun _ _ => Between.rolledBack
  · exact fun _ => Between.rolledBack

/-- No standalone task is an interval or a once task. -/
theorem reschedule_standalone (isStandalone : cfg.backend = .standalone)
    (task : Task) : reschedule cfg task = pure () := by
  simp only [reschedule, Config.scheduleType, isStandalone]

theorem nextRun_spec {expression : String} {base : Option Time}
    {known : Loc → Prop} :
    (scheduler cfg).Spec call (fun _ => known) (nextRun cfg expression base)
      (fun next _ state => Later base next ∧ known state)
      (fun _ => known) := by
  apply Setting.Spec.bind local_stable currentTime_spec
  intro begun
  apply Setting.Spec.bind local_stable currentTime_spec
  intro now
  split
  · rename_i next isNext
    apply Setting.Spec.pure local_stable
    intro db state _ _ holds
    refine ⟨?_, holds⟩
    intro due isDue
    rw [isDue] at isNext
    exact calculateNextRun_later isNext
  · exact Setting.Spec.raise local_stable fun _ _ _ holds => holds

theorem enqueueCron_spec (isStandalone : cfg.backend = .standalone)
    (isScheduler : call.OfScheduler) (isCopy : Copy call noted copy)
    (isCron : cfg.isCron copy = true) :
    (scheduler cfg).Spec call (fun _ => Between noted)
      (do
        let next ← nextRun cfg copy.cronExpression copy.nextRunAt
        advanceScheduledTaskIfDue cfg copy.id copy.nextRunAt next
          copy.jobSpec)
      (fun _ _ => Between noted) (fun _ => Between noted) := by
  apply Setting.Spec.bind local_stable nextRun_spec
  intro next
  apply Setting.Spec.fact
  intro later
  apply Setting.Spec.exists_
  intro written
  apply Setting.Spec.strengthen (advanceScheduledTaskIfDue_spec isStandalone
    isScheduler isCopy isCron later)
  · exact fun _ _ _ _ => Advanced.between
  · exact fun _ _ _ => Advanced.between

theorem enqueueOther_spec (isStandalone : cfg.backend = .standalone)
    (isScheduler : call.OfScheduler) (isCopy : Copy call noted copy)
    (notCron : cfg.isCron copy = false) :
    (scheduler cfg).Spec call (fun _ => Between noted)
      (do
        if ← hasPendingJobForScheduledTask cfg copy.id then pure none
        else do
          let job ← createJob cfg copy.jobSpec
          reschedule cfg copy
          pure (some job) : Sql (Option TaskJob))
      (fun _ _ => Between noted) (fun _ => Between noted) := by
  apply Setting.Spec.bind local_stable (hasPending_spec isStandalone)
  intro pending
  split
  · exact Setting.Spec.skip local_stable
  · apply Setting.Spec.bind local_stable
      (createJob_spec isStandalone isScheduler isCopy notCron)
    intro created
    rw [reschedule_standalone isStandalone]
    apply Setting.Spec.bind local_stable (Setting.Spec.skip local_stable)
    exact fun _ => Setting.Spec.skip local_stable

/-- `_enqueue_for_scheduled_task`, whatever it ends with. -/
theorem enqueueForScheduledTask_spec (isStandalone : cfg.backend = .standalone)
    (isScheduler : call.OfScheduler) (isCopy : Copy call noted copy) :
    (scheduler cfg).Spec call (fun _ => Between noted)
      (idleTransaction cfg (enqueueForScheduledTask cfg copy))
      (fun _ _ => Between noted) (fun _ => Between noted) := by
  simp only [idleTransaction, isStandalone]
  unfold enqueueForScheduledTask
  split
  · rename_i isCron
    exact enqueueCron_spec isStandalone isScheduler isCopy isCron
  · rename_i notCron
    exact enqueueOther_spec isStandalone isScheduler isCopy
      (Bool.not_eq_true _ ▸ notCron)

end Process

/-! ## The calls -/

section Calls

variable {cfg : Config}

theorem dueTasks_spec (now : Time) {call : Call} {fails : Db → Loc → Prop} :
    (scheduler cfg).Spec call (fun _ state => Idle [] [] state)
      (observe (dueTasks now) fun tasks =>
        tasks.map fun task => .remark (.due task) : Sql (List Task))
      (fun tasks _ state =>
        Idle (tasks.map fun task => .remark (.due task)) [] state) fails := by
  apply observe_spec
  intro db task member
  obtain ⟨due, isDue, same⟩ := List.mem_map.mp member
  cases same
  have inRows := (List.mem_insertionSort _).mp isDue
  exact Table.get_of_mem (List.mem_of_mem_filter inRows)

/-- Where a call ends, no transaction is open. -/
def Ended (state : Loc) : Prop := ∃ noted, Between noted state

theorem runDueTasks_spec (isStandalone : cfg.backend = .standalone)
    (queueNames : Option (List String)) :
    (scheduler cfg).Spec (.runDueTasks queueNames)
      (fun _ state => Idle [] [] state) (runDueTasks cfg queueNames)
      (fun _ _ => Ended) (fun _ => Ended) := by
  have reads : (scheduler cfg).Spec (.runDueTasks queueNames)
      (fun _ state => Idle [] [] state) getDueScheduledTasks
      (fun tasks _ state =>
        Idle (tasks.map fun task => .remark (.due task)) [] state)
      (fun _ => Ended) := by
    apply Setting.Spec.bind local_stable currentTime_spec
    exact fun now => dueTasks_spec now
  apply Setting.Spec.bind local_stable reads
  intro tasks
  have loop : (scheduler cfg).Spec (.runDueTasks queueNames)
      (fun _ => Between (tasks.map fun task => .remark (.due task)))
      (each (fun task =>
        quietly (idleTransaction cfg (enqueueForScheduledTask cfg task)))
        (tasks.filter fun task =>
          queueNames.all fun names => task.queueName ∈ names))
      (fun _ _ => Between (tasks.map fun task => .remark (.due task)))
      (fun _ => Between (tasks.map fun task => .remark (.due task))) := by
    apply Setting.Spec.each local_stable local_stable
    intro task member
    apply Setting.Spec.quietly _ local_stable
    have isCopy : Copy (.runDueTasks queueNames)
        (tasks.map fun task => .remark (.due task)) task :=
      List.mem_map_of_mem (List.mem_of_mem_filter member)
    exact enqueueForScheduledTask_spec isStandalone trivial isCopy
  apply (Setting.Spec.strengthen loop _ _).weaken
  · exact fun _ _ _ idle => ⟨[], idle⟩
  · exact fun _ _ _ _ between => ⟨_, between⟩
  · exact fun _ _ _ between => ⟨_, between⟩

theorem idle_initial {state : Loc} (isInitial : state = {}) :
    Idle [] [] state := by
  subst isInitial
  exact ⟨rfl, rfl, rfl⟩

/-- Of what a call returns nothing is said. -/
theorem triple_of_spec {call : Call} {script : Sql Unit}
    (spec : (scheduler cfg).Spec call (fun _ state => Idle [] [] state) script
      (fun _ _ => Ended) (fun _ => Ended)) :
    (scheduler cfg).Triple call (fun _ state => state = {}) script.run
      (fun _ _ _ => True) := by
  intro db state inv guarded isInitial
  have safe := spec db state inv guarded (idle_initial isInitial)
  exact Setting.Safe.mono (fun _ _ _ _ _ => trivial) safe

theorem scheduler_verified (isStandalone : cfg.backend = .standalone) :
    (scheduler cfg).VerifiedFor Call.OfScheduler fun _ _ _ _ => True := by
  intro call isScheduler
  cases call with
  | runDueTasks queueNames =>
      exact triple_of_spec (runDueTasks_spec isStandalone queueNames)
  | enqueueForScheduledTask task =>
      have processes : (scheduler cfg).Spec (.enqueueForScheduledTask task)
          (fun _ => Between [])
          (idleTransaction cfg (enqueueForScheduledTask cfg task))
          (fun _ _ => Between []) (fun _ => Between []) :=
        enqueueForScheduledTask_spec isStandalone trivial rfl
      apply triple_of_spec
      apply Setting.Spec.quietly _ local_stable
      apply (Setting.Spec.strengthen processes _ _).weaken
      · exact fun _ _ _ idle => ⟨[], idle⟩
      · exact fun _ _ _ _ between => ⟨[], between⟩
      · exact fun _ _ _ between => ⟨[], between⟩
  | runClaimedTasks => exact isScheduler.elim
  | executorRunDueTasks => exact isScheduler.elim
  | updateScheduledTask task columns =>
      have edits : (scheduler cfg).Spec (.updateScheduledTask task columns)
          (fun _ state => Idle [] [] state)
          (scriptOf cfg (.updateScheduledTask task columns))
          (fun _ _ => Ended) (fun _ => Ended) := by
        have undone : ∀ state : Loc, Ended state → Ended state.rolledBack := by
          intro state ended
          obtain ⟨noted, between⟩ := ended
          exact ⟨noted, between.rolledBack⟩
        simp only [scriptOf, autocommit, isStandalone]
        apply Setting.Spec.strengthen (updateScheduledTask_spec isStandalone
          isScheduler undone fun db row _ => .edits task columns row rfl)
        · intro _ db state _ holds
          obtain ⟨writes, idle, _⟩ := holds
          exact ⟨[], _, idle⟩
        · exact fun _ _ _ failed => failed
      exact triple_of_spec edits

end Calls

end Sqlery.Scheduling
