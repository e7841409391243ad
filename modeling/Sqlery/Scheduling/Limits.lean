import Sqlery.Scheduling.Repeat

/-!
# The limit of an interval task

`TaskExecutor` inserts a job of the task only under the lock of its row and
only after it has counted fewer jobs than the limit.  Schedulers of other
queues and edits of other tasks leave it alone.  So the limit holds until
retention deletes a job of the task or a scheduler that does not count
processes it.
-/

namespace Sqlery.Scheduling

open ReadCommitted
open Script

/-- Calls that process the task only as `TaskExecutor` does. -/
def Counting (task : Nat) (queue : String) : Call → Prop
  | .executorRunDueTasks => True
  | .runDueTasks queueNames => ∃ names, queueNames = some names ∧ queue ∉ names
  | .enqueueForScheduledTask copy => copy.id ≠ task
  | .updateScheduledTask other _ => other ≠ task
  | .runClaimedTasks => False

section Others

variable {cfg : Config} {task limit : Nat} {queue : String} {call : Call}

/-! ## Schedulers that leave the task alone -/

theorem keeps_other {other : Nat} (different : other ≠ task)
    (columns : Columns) : Keeps task (.updateTask other columns) :=
  .update other columns fun same => absurd same different

theorem currentTime_harmless :
    Harmless cfg task limit queue call currentTime :=
  Harmless.observe

theorem nextRun_harmless {expression : String} {base : Option Time} :
    Harmless cfg task limit queue call (nextRun cfg expression base) := by
  apply Harmless.bind currentTime_harmless
  intro begun
  apply Harmless.bind currentTime_harmless
  intro now
  split
  · exact Harmless.pure _
  · exact Harmless.raise _

theorem updateScheduledTask_harmless (isDjango : cfg.backend = .django)
    {other : Nat} {columns : Columns}
    (keeps : Keeps task (.updateTask other columns)) :
    Harmless cfg task limit queue call
      (updateScheduledTask cfg other columns) := by
  simp only [updateScheduledTask, isDjango]
  apply Harmless.bind
  · apply Harmless.updateTasks
    intro row isOther
    rw [of_decide_eq_true isOther]
    exact keeps
  · exact fun _ => Harmless.pure _

theorem jobSpec_other {copy : Task} (different : copy.id ≠ task) :
    copy.jobSpec.scheduledTaskId ≠ some task :=
  fun same => different (Option.some.inj same)

theorem advanceDjango_harmless (isDjango : cfg.backend = .django)
    {copy : Task} {next : Time} (different : copy.id ≠ task) :
    Harmless cfg task limit queue call
      (advanceDjango cfg copy.id copy.nextRunAt next copy.jobSpec) := by
  apply Harmless.bind
  · apply Harmless.updateTasks
    intro row wins
    have isCopy : row.id = copy.id := by
      simp only [winsAdvance, Bool.and_eq_true, decide_eq_true_eq] at wins
      exact wins.1.1
    rw [isCopy]
    exact keeps_other different _
  · intro advanced
    split
    · exact Harmless.pure _
    · apply Harmless.map
      simp only [createJob, isDjango]
      exact Harmless.insertJob (jobSpec_other different) rfl

theorem reschedule_harmless (isDjango : cfg.backend = .django) {copy : Task}
    (different : copy.id ≠ task) :
    Harmless cfg task limit queue call (reschedule cfg copy) := by
  unfold reschedule
  split
  · split
    · apply Harmless.bind currentTime_harmless
      intro now
      exact updateScheduledTask_harmless isDjango (keeps_other different _)
    · exact Harmless.pure _
  · exact updateScheduledTask_harmless isDjango (keeps_other different _)
  · exact Harmless.pure _

/-- `Scheduler` and a copy of another task. -/
theorem enqueueForScheduledTask_harmless (isDjango : cfg.backend = .django)
    {copy : Task} (different : copy.id ≠ task) :
    Harmless cfg task limit queue call
      (quietly (idleTransaction cfg (enqueueForScheduledTask cfg copy))) := by
  apply Harmless.quietly
  simp only [idleTransaction, isDjango]
  apply Harmless.session
  apply Harmless.bind
  · unfold enqueueForScheduledTask
    split
    · apply Harmless.bind nextRun_harmless
      intro next
      simp only [advanceScheduledTaskIfDue, isDjango]
      exact advanceDjango_harmless isDjango different
    · apply Harmless.bind
      · simp only [hasPendingJobForScheduledTask, isDjango]
        exact Harmless.observe
      · intro pending
        split
        · exact Harmless.pure _
        · apply Harmless.bind
          · simp only [createJob, isDjango]
            exact Harmless.insertJob (jobSpec_other different) rfl
          · intro job
            apply Harmless.bind (reschedule_harmless isDjango different)
            exact fun _ => Harmless.pure _
  · intro job
    apply Harmless.bind Harmless.commit
    exact fun _ => Harmless.pure _

/-- A due copy of the task has its queue. -/
theorem getDueScheduledTasks_spec :
    (counting cfg task limit queue).Spec call (Fits cfg task limit)
      getDueScheduledTasks
      (fun tasks db state =>
        (∀ copy ∈ tasks, copy.id = task → copy.queueName = queue) ∧
          Fits cfg task limit db state)
      (Fits cfg task limit) := by
  have clock : Harmless cfg task limit queue call currentTime :=
    currentTime_harmless
  apply Setting.Spec.bind fits_stable clock
  intro now
  apply Setting.Spec.observe fits_stable
  · exact fun _ => Setting.stable_and Setting.stable_fact fits_stable
  · intro db state stored _ fits
    refine ⟨trivial, ?_, fits.keeps, ?_⟩
    · intro copy member isTask
      have inRows := List.mem_of_mem_filter
        ((List.mem_insertionSort _).mp member)
      have isRow := Table.get_of_mem inRows
      rw [isTask] at isRow
      exact (repeats_after fits.keeps stored copy isRow).queueName
    · rcases fits.counted with none | ⟨one, counted⟩
      · exact Or.inl none
      · exact Or.inr ⟨one, counted.held, counted.enabled, counted.below⟩

/-- `Scheduler.run_due_tasks` of other queues. -/
theorem runDueTasks_harmless (isDjango : cfg.backend = .django)
    {names : List String} (elsewhere : queue ∉ names) :
    Harmless cfg task limit queue call (runDueTasks cfg (some names)) := by
  apply Setting.Spec.bind fits_stable getDueScheduledTasks_spec
  intro tasks
  apply Setting.Spec.fact
  intro inQueue
  apply Setting.Spec.each fits_stable fits_stable
  intro copy member
  obtain ⟨isDue, inNames⟩ := List.mem_filter.mp member
  apply enqueueForScheduledTask_harmless isDjango
  intro isTask
  rw [Option.all_some, decide_eq_true_eq, inQueue copy isDue isTask]
    at inNames
  exact elsewhere inNames

end Others

/-! ## `TaskExecutor` -/

section Executor

variable {cfg : Config} {task limit : Nat} {queue : String} {call : Call}

/-- The executor has claimed the row. -/
structure Claimed (cfg : Config) (row : Task) (db : Db) (state : Loc) :
    Prop where
  clean : state.pending = []
  enabled : row.enabled = true
  held : lockOf cfg.dialect row.id ∈ state.held
  row : db.tasks.get row.id = some row

theorem claimed_stable {row : Task} :
    (counting cfg task limit queue).Stable (Claimed cfg row) := by
  intro first second state changed inv guarded claimed
  have still := Setting.stable_locked
    (row_locked counting_ofTasks row.id (some row)) first second state changed
    inv guarded ⟨claimed.held, claimed.row⟩
  exact ⟨claimed.clean, claimed.enabled, claimed.held, still.2⟩

/-- And if it is the task's, its jobs have been counted. -/
structure Allowed (cfg : Config) (task limit : Nat) (row : Task) (db : Db)
    (state : Loc) : Prop where
  claimed : Claimed cfg row db state
  counted : row.id = task → Counted cfg task limit db state

theorem allowed_stable {row : Task} :
    (counting cfg task limit queue).Stable (Allowed cfg task limit row) := by
  intro first second state changed inv guarded allowed
  constructor
  · exact claimed_stable first second state changed inv guarded
      allowed.claimed
  · intro isTask
    exact counted_stable first second state changed inv guarded
      (allowed.counted isTask)

theorem view_clean {db : Db} {state : Loc} (clean : state.pending = []) :
    (counting cfg task limit queue).sys.view db state = db := by
  simp [System.view, clean]

/-- `SELECT FOR UPDATE SKIP LOCKED`, and SQLite's writer lock. -/
theorem claimTask_spec (now : Time) (other : Nat) :
    (counting cfg task limit queue).Spec call
      (fun _ state => state.pending = [])
      (claimTask cfg now other)
      (fun found db state => state.pending = [] ∧
        ∀ row, found = some row → Claimed cfg row db state)
      (fun _ _ => True) := by
  have stable : (counting cfg task limit queue).Stable
      fun _ (state : Loc) => state.pending = [] :=
    fun _ _ _ _ _ _ holds => holds
  have stablePost : ∀ found : Option Task,
      (counting cfg task limit queue).Stable fun db state =>
        state.pending = [] ∧
          ∀ row, found = some row → Claimed cfg row db state := by
    intro found first second state changed inv guarded holds
    refine ⟨holds.1, ?_⟩
    intro row isRow
    exact claimed_stable first second state changed inv guarded
      (holds.2 row isRow)
  have admitted : ∀ row : Task,
      (decide (row.id = other) && isDue now row) = true →
        row.enabled = true := by
    intro row isAdmitted
    simp only [isDue, Bool.and_eq_true] at isAdmitted
    exact isAdmitted.2.1
  unfold claimTask
  simp only
  split
  · rename_i isPostgresql
    apply Setting.Spec.map
    · apply Setting.Spec.exec stable
      · exact fun rows => stablePost rows.head?
      · intro snapshot current state others effect _ _ _ _ before clean ran
        rw [view_clean clean, view_clean clean] at ran
        simp only [lockFreeRows, Option.some.injEq] at ran
        subst ran
        refine ⟨Or.inl rfl, by simp [Local.extend, clean], ?_⟩
        intro row isHead
        have member := List.mem_of_head? isHead
        obtain ⟨isRow, isAdmitted⟩ :=
          mem_hits Db.tasks (List.mem_of_mem_filter member)
        refine ⟨by simp [Local.extend, clean], admitted row isAdmitted, ?_,
          isRow⟩
        rw [isPostgresql]
        simp only [Local.extend, System.acquired, List.mem_append]
        exact Or.inr (Or.inl (List.mem_map.mpr ⟨row, member, rfl⟩))
    · exact fun rows => stablePost rows.head?
    · exact fun _ _ _ _ _ _ _ => trivial
  · rename_i isSqlite
    apply Setting.Spec.exec stable stablePost
    intro snapshot current state others effect _ _ _ _ before clean ran
    rw [view_clean clean] at ran
    simp only [Option.some.injEq] at ran
    subst ran
    refine ⟨Or.inl rfl, by simp [Local.extend, clean], ?_⟩
    intro row isFound
    have isAdmitted := List.find?_some isFound
    refine ⟨by simp [Local.extend, clean], admitted row isAdmitted, ?_,
      Table.get_of_mem (List.mem_of_find?_eq_some isFound)⟩
    rw [isSqlite]
    simp [Local.extend, System.acquired, lockOf]

/-- The limit has not been reached, so fewer jobs are stored. -/
theorem counted_of_limit {row : Task} {db : Db} {state : Loc}
    (stored : Stored (Repeats limit queue) task db)
    (claimed : Claimed cfg row db state)
    (unreached : reachedLimit row db = false) :
    Allowed cfg task limit row db state := by
  refine ⟨claimed, ?_⟩
  intro isTask
  have isRow := claimed.row
  rw [isTask] at isRow
  have repeats := stored row isRow
  have fewer : (db.allJobs task).length < limit := by
    simpa [reachedLimit, repeats.isInterval, repeats.repeat_, isTask] using
      unreached
  constructor
  · rw [← isTask]
    exact claimed.held
  · simp [isDisabled, isRow, claimed.enabled]
  · exact firstJobs_le_allJobs.trans_lt fewer

theorem insertCounted_spec {row : Task} {spec : JobSpec}
    (ofRow : spec.scheduledTaskId = some row.id)
    (isFirst : spec.parentJobId = none) :
    (counting cfg task limit queue).Spec call (Allowed cfg task limit row)
      (insertJob cfg spec) (fun _ => Fits cfg task limit)
      (fun _ _ => True) := by
  apply insertJob_spec counting_ofTasks allowed_stable (fun _ => fits_stable)
    Setting.stable_fact
  · intro db state locks allowed
    constructor
    · refine ⟨by simp [Local.extend, allowed.claimed.clean],
        allowed.claimed.enabled, ?_, allowed.claimed.row⟩
      exact List.mem_append_left _ allowed.claimed.held
    · intro isTask
      have counted := allowed.counted isTask
      refine ⟨?_, counted.enabled, counted.below⟩
      exact List.mem_append_left _ counted.held
  · intro db state id locks allowed
    have clean := allowed.claimed.clean
    constructor
    · intro write member
      simp only [Local.extend, clean, List.nil_append, List.mem_singleton]
        at member
      rw [member]
      exact .insert _ isFirst
    · by_cases isTask : row.id = task
      · right
        have counted := allowed.counted isTask
        refine ⟨?_, ?_, counted.enabled, counted.below⟩
        · simp [Local.extend, clean, enqueued, Write.enqueues, TaskJob.of,
            ofRow, isTask]
        · exact List.mem_append_left _ counted.held
      · left
        simp [Local.extend, clean, enqueued, Write.enqueues, TaskJob.of, ofRow,
          isTask]

/-- The columns of the next run enable nothing and move no task. -/
theorem keeps_executorColumns {row : Task} {now : Time} {columns : Columns}
    {other : Nat} (isColumns : executorColumns cfg row now = some columns) :
    Keeps task (.updateTask other columns) := by
  apply Keeps.update
  intro _
  unfold executorColumns at isColumns
  split at isColumns
  · obtain ⟨next, _, rfl⟩ := Option.map_eq_some_iff.mp isColumns
    exact ⟨rfl, by simp⟩
  · cases isColumns
    exact ⟨rfl, by simp⟩
  · cases isColumns
    exact ⟨rfl, by simp⟩
  · cases isColumns
    exact ⟨rfl, by simp⟩

theorem Harmless.spec {β : Type} {script : Sql β}
    (harmless : Harmless cfg task limit queue call script) :
    (counting cfg task limit queue).Spec call (Fits cfg task limit) script
      (fun _ => Fits cfg task limit) (fun _ _ => True) := by
  apply Setting.Spec.strengthen harmless
  · exact fun _ _ _ _ still => still
  · exact fun _ _ _ _ => trivial

/-- What follows once the limit allows a job. -/
theorem executorInsert_spec (row : Task) :
    (counting cfg task limit queue).Spec call (Allowed cfg task limit row)
      (do
        if ← read (isPending row.id) then pure ()
        else do
          let _ ← insertJob cfg
            { taskPath := row.taskPath
              kwargs := row.kwargs
              queueName := row.queueName
              priority := row.priority
              scheduledTaskId := some row.id }
          match ← read fun db => db.tasks.get row.id with
          | none => raise .missing
          | some fresh => do
              let now ← currentTime
              match executorColumns cfg fresh now with
              | some columns => updateOne cfg row.id columns
              | none => raise .invalidExpression : Sql Unit)
      (fun _ => Fits cfg task limit) (fun _ _ => True) := by
  have checks : (counting cfg task limit queue).Spec call
      (Allowed cfg task limit row) (read (isPending row.id) : Sql Bool)
      (fun _ => Allowed cfg task limit row) (fun _ _ => True) := by
    apply Setting.Spec.observe allowed_stable (fun _ => allowed_stable)
    intro db state _ _ allowed
    have same : ({ state with noted := state.noted ++ [] } : Loc) = state :=
      by rw [List.append_nil]
    simp only [Local.note, same]
    exact ⟨trivial, allowed⟩
  apply Setting.Spec.bind Setting.stable_fact checks
  intro pending
  split
  · apply Setting.Spec.pure allowed_stable
    exact fun _ _ _ _ allowed => fits_clean allowed.claimed.clean
  · apply Setting.Spec.bind Setting.stable_fact
      (insertCounted_spec rfl rfl)
    intro job
    apply Harmless.spec
    apply Harmless.bind Harmless.observe
    intro found
    split
    · exact Harmless.raise _
    · apply Harmless.bind currentTime_harmless
      intro now
      split
      · rename_i isColumns
        exact Harmless.updateOne (keeps_executorColumns isColumns)
      · exact Harmless.raise _

theorem executorEnqueue_spec (row : Task) :
    (counting cfg task limit queue).Spec call (Claimed cfg row)
      (executorEnqueue cfg row) (fun _ => Fits cfg task limit)
      (fun _ _ => True) := by
  have counts : (counting cfg task limit queue).Spec call (Claimed cfg row)
      (read (reachedLimit row) : Sql Bool)
      (fun reached db state => Claimed cfg row db state ∧
        (reached = false → Allowed cfg task limit row db state))
      (fun _ _ => True) := by
    apply Setting.Spec.observe claimed_stable
    · exact fun _ => Setting.stable_and claimed_stable
        (Setting.stable_when allowed_stable)
    · intro db state stored _ claimed
      have same : ({ state with noted := state.noted ++ [] } : Loc) = state :=
        by rw [List.append_nil]
      rw [view_clean claimed.clean]
      simp only [Local.note, same]
      exact ⟨trivial, claimed, counted_of_limit stored claimed⟩
  unfold executorEnqueue
  apply Setting.Spec.bind Setting.stable_fact counts
  intro reached
  split
  · have disables : Harmless cfg task limit queue call
        (updateOne cfg row.id { enabled := some false, nextRunAt := some none })
        := Harmless.updateOne (.update _ _ fun _ => ⟨rfl, by simp⟩)
    exact disables.spec.weaken fun _ _ _ holds =>
      fits_clean holds.1.clean
  · rename_i unreached
    exact (executorInsert_spec row).weaken fun _ _ _ holds =>
      holds.2 (Bool.not_eq_true _ ▸ unreached)

/-- A due task is claimed and enqueued in a transaction. -/
theorem claimAndEnqueue_spec (now : Time) (other : Nat) :
    (counting cfg task limit queue).Spec call
      (fun _ state => state.pending = [])
      (do
        match ← claimTask cfg now other with
        | none => pure ()
        | some row => executorEnqueue cfg row
        commit : Sql Unit)
      (fun _ => Fits cfg task limit) (fun _ _ => True) := by
  have commits : (counting cfg task limit queue).Spec call
      (Fits cfg task limit) (commit : Sql Unit)
      (fun _ => Fits cfg task limit) (fun _ _ => True) := by
    apply Setting.Spec.commit fits_stable fits_stable
    exact fun _ _ _ _ fits => ⟨fits, fits_clean rfl⟩
  apply Setting.Spec.bind Setting.stable_fact (claimTask_spec now other)
  intro found
  cases found with
  | none => exact commits.weaken fun _ _ _ holds => fits_clean holds.1
  | some row =>
      apply Setting.Spec.bind Setting.stable_fact _ fun _ => commits
      exact (executorEnqueue_spec row).weaken fun _ _ _ holds =>
        holds.2 row rfl

/-- `TaskExecutor.run_due_tasks`. -/
theorem executorRunDueTasks_spec :
    (counting cfg task limit queue).Spec call
      (fun _ state => state.pending = []) (executorRunDueTasks cfg)
      (fun _ _ state => state.pending = []) (fun _ _ => True) := by
  have stable : (counting cfg task limit queue).Stable
      fun _ (state : Loc) => state.pending = [] :=
    fun _ _ _ _ _ _ holds => holds
  have reads : ∀ {β : Type} (query : Db → β),
      (counting cfg task limit queue).Spec call
        (fun _ state => state.pending = []) (read query : Sql β)
        (fun _ _ state => state.pending = []) (fun _ _ => True) := by
    intro β query
    apply Setting.Spec.observe stable (fun _ => stable)
    exact fun _ _ _ _ clean => ⟨trivial, clean⟩
  apply Setting.Spec.bind Setting.stable_fact (reads Db.clock)
  intro now
  apply Setting.Spec.bind Setting.stable_fact (reads _)
  intro dueTaskIds
  apply Setting.Spec.each stable Setting.stable_fact
  intro other _
  apply Setting.Spec.session (claimAndEnqueue_spec now other)
    (fun _ => fits_stable) Setting.stable_fact
    (fun _ => stable) Setting.stable_fact
  · exact fun _ _ _ _ _ => rfl
  · exact fun _ _ _ _ => trivial

/-- Every call that counts, or leaves the task alone, keeps the promise. -/
theorem counting_verified (isDjango : cfg.backend = .django) :
    (counting cfg task limit queue).VerifiedFor (Counting task queue)
      fun _ _ _ _ => True := by
  have harmless : ∀ {call : Call},
      Harmless cfg task limit queue call (scriptOf cfg call) →
      (counting cfg task limit queue).Triple call (fun _ state => state = {})
        (scriptOf cfg call).run (fun _ _ _ => True) := by
    intro call fits db state inv guarded isInitial
    subst isInitial
    have safe := fits db {} inv guarded (fits_clean rfl)
    exact Setting.Safe.mono (fun _ _ _ _ _ => trivial) safe
  intro call counts
  cases call with
  | runDueTasks queueNames =>
      obtain ⟨names, rfl, elsewhere⟩ := counts
      exact harmless (runDueTasks_harmless isDjango elsewhere)
  | enqueueForScheduledTask copy =>
      exact harmless (enqueueForScheduledTask_harmless isDjango counts)
  | runClaimedTasks => exact counts.elim
  | executorRunDueTasks =>
      intro db state inv guarded isInitial
      subst isInitial
      have spec : (counting cfg task limit queue).Spec .executorRunDueTasks
          (fun _ state => state.pending = []) (executorRunDueTasks cfg)
          (fun _ _ state => state.pending = []) (fun _ _ => True) :=
        executorRunDueTasks_spec
      have safe := spec db {} inv guarded rfl
      exact Setting.Safe.mono (fun _ _ _ _ _ => trivial) safe
  | updateScheduledTask other columns =>
      apply harmless
      simp only [scriptOf, autocommit, isDjango]
      apply Harmless.session
      apply Harmless.bind
        (updateScheduledTask_harmless isDjango (keeps_other counts columns))
      intro result
      apply Harmless.bind Harmless.commit
      exact fun _ => Harmless.pure _

end Executor

/-! ## Runs -/

/-- Every scheduler that processes the task counts, nobody edits the task, and
retention leaves its jobs alone while it is enabled. -/
structure KeepsCount {n : Nat} (task : Nat) (queue : String)
    (state : State Db Write Lock Call Return n) (action : Action Write Call n) :
    Prop where
  starts : ∀ process call, action = .start process call →
    Counting task queue call
  kept : ∀ id, action = .ambient (.expire id) →
    isDisabled task state.db = true ∨
      ∀ job ∈ state.db.history, job.id = id → job.of task = false

/-- No more jobs than the limit have been enqueued, and as long as the task is
enabled every one of them is stored. -/
structure WithinLimit {n : Nat} (task limit : Nat)
    (state : State Db Write Lock Call Return n) : Prop where
  limit : jobsEnqueued task state ≤ limit
  stored : isDisabled task state.db = false →
    jobsEnqueued task state ≤ state.db.firstJobs task

section Runs

variable {cfg : Config} {task limit n : Nat} {queue : String}
variable {state next : State Db Write Lock Call Return n}
variable {action : Action Write Call n}

theorem WithinLimit.commits (within : WithinLimit task limit state)
    {process : Fin n} {call : Call}
    (committed : Setting.Commits (counting cfg task limit queue) state next
      action process call) :
    WithinLimit task limit next := by
  have fits : Fits cfg task limit state.db (state.session process).state :=
    committed.promised
  have isNext : next.db =
      after (state.session process).state.pending state.db := committed.db
  have jobs : jobsEnqueued task next = jobsEnqueued task state +
      enqueued task (state.session process).state.pending := by
    simp [jobsEnqueued, committed.journal]
  have stored : next.db.firstJobs task = state.db.firstJobs task +
      enqueued task (state.session process).state.pending := by
    rw [isNext]
    exact firstJobs_kept fits.keeps
  have before : isDisabled task next.db = false →
      isDisabled task state.db = false := by
    intro enabled
    by_contra disabled
    have still := disabled_after fits.keeps
      (Bool.not_eq_false _ ▸ disabled)
    rw [← isNext, enabled] at still
    cases still
  constructor
  · rcases fits.counted with none | ⟨one, counted⟩
    · have bounded := within.limit
      omega
    · have bounded := within.stored counted.enabled
      have below := counted.below
      omega
  · intro enabled
    have bounded := within.stored (before enabled)
    omega

theorem WithinLimit.quiet (within : WithinLimit task limit state)
    (keepsCount : KeepsCount task queue state action)
    (quiet : Setting.Quiet (counting cfg task limit queue) state next action) :
    WithinLimit task limit next := by
  have jobs : jobsEnqueued task next = jobsEnqueued task state := by
    rw [jobsEnqueued, quiet.journal]
    rfl
  have disabled : isDisabled task next.db = isDisabled task state.db :=
    isDisabled_of_same (tasks_of_drifts counting_ofTasks quiet.db)
  have stored : isDisabled task state.db = false →
      next.db.firstJobs task = state.db.firstJobs task := by
    intro enabled
    cases quiet.db with
    | same isSame => rw [isSame]
    | instant call local_ writes promised isNext =>
        rcases promised with none | counter
        · rw [isNext, none]
          rfl
        · rw [isNext, counter]
          rfl
    | ambient write isAction isAmbient isNext =>
        have same : (write.apply state.db).firstJobs task =
            state.db.firstJobs task := by
          apply firstJobs_ambient isAmbient
          intro id isExpire
          subst isExpire
          rcases keepsCount.kept id isAction with isDisabled | spared
          · rw [enabled] at isDisabled
            cases isDisabled
          · exact spared
        rw [isNext]
        exact same
  constructor
  · rw [jobs]
    exact within.limit
  · intro enabled
    rw [disabled] at enabled
    rw [jobs, stored enabled]
    exact within.stored enabled

end Runs

/-- While its jobs keep their count, no more jobs are enqueued for an interval
task than its limit. -/
theorem repeat_limit_counted {cfg : Config} (isDjango : cfg.backend = .django)
    {n task limit : Nat} {queue : String} {db : Db}
    (repeats : Stored (Repeats limit queue) task db)
    {state : State Db Write Lock Call Return n}
    (reached : (system cfg).Reaches (KeepsCount task queue)
      (System.initial db) state) :
    jobsEnqueued task state ≤ limit := by
  have within : WithinLimit task limit state := by
    have verified : (counting cfg task limit queue).VerifiedFor
        (Counting task queue) fun _ _ _ _ => True :=
      counting_verified isDjango
    apply Setting.VerifiedFor.induct verified _ repeats _ _ reached
    · intro _ process call keepsCount
      exact keepsCount.starts process call rfl
    · exact ⟨Nat.zero_le _, fun _ => Nat.zero_le _⟩
    · intro state action next good _ within keepsCount taken
      rcases good.act_cases taken with ⟨process, call, committed⟩ | quiet
      · exact within.commits committed
      · exact within.quiet keepsCount quiet
  exact within.limit

/-- A check of one action that is enough for `KeepsCount`. -/
def isCounting {n : Nat} (task : Nat)
    (state : State Db Write Lock Call Return n) : Action Write Call n → Bool
  | .start _ .executorRunDueTasks => true
  | .start _ _ => false
  | .ambient (.expire id) =>
      isDisabled task state.db || state.db.history.all fun job =>
        job.id ≠ id || !job.of task
  | _ => true

theorem keepsCount_of_check {n task : Nat} {queue : String}
    (state : State Db Write Lock Call Return n) (action : Action Write Call n)
    (checked : isCounting task state action = true) :
    KeepsCount task queue state action := by
  constructor
  · intro process call isStart
    subst isStart
    cases call with
    | executorRunDueTasks => trivial
    | _ => cases checked
  · intro id isExpire
    subst isExpire
    simp only [isCounting, Bool.or_eq_true, List.all_eq_true,
      decide_eq_true_eq, Bool.not_eq_true'] at checked
    rcases checked with disabled | spared
    · exact Or.inl disabled
    · right
      intro job member isJob
      exact (spared job member).resolve_left fun other => other isJob

/-- The Django backend on PostgreSQL. -/
def djangoOnPostgresql : Config :=
  { dialect := .postgresql, backend := .django }

/-- An interval task that has been due since the beginning. -/
def everySixtySeconds (limit : Nat) : Task where
  id := 1
  scheduleType := .interval
  intervalSeconds := 60
  repeat_ := some limit
  nextRunAt := some 0

theorem repeats_everySixtySeconds (limit : Nat) :
    Stored (Repeats limit "default") 1
      (withTask (everySixtySeconds limit)) := by
  intro row isRow
  have same : some (everySixtySeconds limit) = some row := isRow
  cases same
  exact ⟨rfl, rfl, rfl⟩

/-- A job ends, and a minute goes by. -/
def jobEnds : List (Action Write Call 1) :=
  [.ambient (.finish 0 .success), .ambient (.tick 60000000)]

/-- The second tick disables the task, and only then its job is deleted. -/
def expiresLate : List (Action Write Call 1) :=
  Action.calls 0 .executorRunDueTasks 16 ++ jobEnds ++
    Action.calls 0 .executorRunDueTasks 9 ++ [.ambient (.expire 0)]

theorem repeat_limit_expiresLate :
    ∃ state, (system djangoOnPostgresql).Reaches (n := 1)
        (KeepsCount 1 "default")
        (System.initial (withTask (everySixtySeconds 1))) state ∧
      isDisabled 1 state.db = true ∧ state.db.history = [] ∧
      jobsEnqueued 1 state = 1 ∧ jobsEnqueued 1 state ≤ 1 := by
  have ran : ((system djangoOnPostgresql).runWhile (isCounting 1)
      (System.initial (withTask (everySixtySeconds 1))) expiresLate).map
        (fun state => (isDisabled 1 state.db, state.db.history,
          jobsEnqueued 1 state)) = some (true, [], 1) := by
    decide +kernel
  obtain ⟨state, isRun, seen⟩ := Option.map_eq_some_iff.mp ran
  have reached : (system djangoOnPostgresql).Reaches (KeepsCount 1 "default")
      (System.initial (withTask (everySixtySeconds 1))) state :=
    (system djangoOnPostgresql).reaches_of_runWhile keepsCount_of_check isRun
  obtain ⟨disabled, rest⟩ := Prod.mk.inj seen
  obtain ⟨expired, one⟩ := Prod.mk.inj rest
  refine ⟨state, reached, disabled, expired, one, ?_⟩
  exact repeat_limit_counted rfl (repeats_everySixtySeconds 1) reached

/-- Schedulers tick, jobs make progress and are cleaned up. -/
def TickStep {n : Nat} (_ : State Db Write Lock Call Return n) :
    Action Write Call n → Prop
  | .start _ (.enqueueForScheduledTask _) => False
  | .start _ (.updateScheduledTask _ _) => False
  | _ => True

/-- Whether a run goes on with ticks. -/
def isTick {n : Nat} (_ : State Db Write Lock Call Return n) :
    Action Write Call n → Bool
  | .start _ (.enqueueForScheduledTask _) => false
  | .start _ (.updateScheduledTask _ _) => false
  | _ => true

theorem tickStep_of_check {n : Nat} (state : State Db Write Lock Call Return n)
    (action : Action Write Call n) (checked : isTick state action = true) :
    TickStep state action := by
  cases action with
  | start process call =>
      cases call with
      | enqueueForScheduledTask => cases checked
      | updateScheduledTask => cases checked
      | _ => trivial
  | _ => trivial

/-- `Scheduler` ticks twice. -/
def neverCounts : List (Action Write Call 1) :=
  Action.calls 0 (.runDueTasks none) 12 ++ jobEnds ++
    Action.calls 0 (.runDueTasks none) 12

/-- `TaskExecutor` ticks twice, and the first job is deleted in between. -/
def expiresEarly : List (Action Write Call 1) :=
  Action.calls 0 .executorRunDueTasks 16 ++ jobEnds ++ [.ambient (.expire 0)] ++
    Action.calls 0 .executorRunDueTasks 16

/-- A task that may run once runs twice: with a scheduler that does not count,
and when retention deletes its job. -/
theorem repeat_limit_exceeded :
    (∃ state, (system djangoOnPostgresql).Reaches (n := 1) TickStep
        (System.initial (withTask (everySixtySeconds 1))) state ∧
      jobsEnqueued 1 state = 2 ∧ (state.db.allJobs 1).length = 2) ∧
    ∃ state, (system djangoOnPostgresql).Reaches (n := 1) TickStep
        (System.initial (withTask (everySixtySeconds 1))) state ∧
      jobsEnqueued 1 state = 2 ∧ (state.db.allJobs 1).length = 1 := by
  constructor
  · have ran : ((system djangoOnPostgresql).runWhile isTick
        (System.initial (withTask (everySixtySeconds 1))) neverCounts).map
          (fun state => (jobsEnqueued 1 state, (state.db.allJobs 1).length)) =
            some (2, 2) := by
      decide +kernel
    obtain ⟨state, isRun, two⟩ := Option.map_eq_some_iff.mp ran
    exact ⟨state, (system djangoOnPostgresql).reaches_of_runWhile
      tickStep_of_check isRun, (Prod.mk.inj two).1, (Prod.mk.inj two).2⟩
  · have ran : ((system djangoOnPostgresql).runWhile isTick
        (System.initial (withTask (everySixtySeconds 1))) expiresEarly).map
          (fun state => (jobsEnqueued 1 state, (state.db.allJobs 1).length)) =
            some (2, 1) := by
      decide +kernel
    obtain ⟨state, isRun, two⟩ := Option.map_eq_some_iff.mp ran
    exact ⟨state, (system djangoOnPostgresql).reaches_of_runWhile
      tickStep_of_check isRun, (Prod.mk.inj two).1, (Prod.mk.inj two).2⟩

end Sqlery.Scheduling
