import Sqlery.Scheduling.Due

/-!
# A task that should run once

The standalone table has no `schedule_type`: a scheduler reads `cron` for every
task of it, also for one that was meant to run once, and disables none.  Such a
task is left as it is but for its due time, and yields a job for each due time
it leaves behind.
-/

namespace Sqlery.Scheduling

open ReadCommitted
open Script

/-- How many jobs of the task have been enqueued. -/
def jobsEnqueued {n : Nat} (task : Nat)
    (state : State Db Write Lock Call Return n) : Nat :=
  (state.journal.map fun entry => enqueued task entry.2).sum

def isDisabled (task : Nat) (db : Db) : Bool :=
  (db.tasks.get task).all fun row => !row.enabled

/-- The row is the task with another due time. -/
def Task.Dates (task row : Task) : Prop :=
  ∃ due, row = { task with nextRunAt := some due }

/-- Schedulers, with copies of the task however old, and operators who leave
it alone. -/
def Unedited (task : Task) : Call → Prop
  | .runDueTasks _ => True
  | .enqueueForScheduledTask copy => copy.id = task.id → task.Dates copy
  | .updateScheduledTask other _ => other ≠ task.id
  | _ => False

/-- Any number of schedulers, with crashes anywhere, and nobody edits the
task. -/
def UneditedStep {n : Nat} (task : Task)
    (_ : State Db Write Lock Call Return n) : Action Write Call n → Prop
  | .start _ call => Unedited task call
  | _ => True

/-- The commit replaces the due time of the task by a later one. -/
def movesOn (task : Nat) (commit : Committed Db Write Call) : Bool :=
  (commit.before.due task).any fun before =>
    (commit.after.due task).any fun after => before < after

/-! ## What a commit leaves of the task -/

section Steps

variable {cfg : Config} {task : Task} {call : Call} {db : Db}

theorem isDisabled_iff {task : Nat} :
    isDisabled task db = true ↔
      ∀ row, db.tasks.get task = some row → row.enabled = false := by
  unfold isDisabled
  cases db.tasks.get task with
  | none => simp
  | some row => simp

theorem isDisabled_of_same {task : Nat} {first second : Db}
    (same : second.tasks.get task = first.tasks.get task) :
    isDisabled task second = isDisabled task first := by
  unfold isDisabled
  rw [same]

/-- A standalone task with an expression is a cron task. -/
theorem Task.Dates.isCron {row : Task} (dates : task.Dates row)
    (isStandalone : cfg.backend = .standalone)
    (expression : task.cronExpression ≠ "") : cfg.isCron row = true := by
  obtain ⟨due, rfl⟩ := dates
  simp [Config.isCron, Config.scheduleType, isStandalone, expression]

theorem Unedited.fair (unedited : Unedited task call)
    (isStandalone : cfg.backend = .standalone)
    (expression : task.cronExpression ≠ "") : Fair cfg task.id call := by
  cases call with
  | runDueTasks queueNames => trivial
  | enqueueForScheduledTask copy =>
      intro isTask
      exact (unedited isTask).isCron isStandalone expression
  | runClaimedTasks => exact unedited
  | executorRunDueTasks => exact unedited
  | updateScheduledTask other columns =>
      intro isTask
      exact absurd isTask unedited

/-- A legal commit changes the due time of the task at most. -/
theorem Legal.dates {noted writes : List Write}
    (legal : Legal cfg call db noted writes) (unedited : Unedited task call)
    (stored : Stored task.Dates task.id db) :
    Stored task.Dates task.id (after writes db) := by
  have elsewhere (writes : List Write)
      (others : ∀ write ∈ writes, write.task ≠ some task.id) :
      Stored task.Dates task.id (after writes db) := by
    intro row isRow
    rw [tasks_after_of_ne others] at isRow
    exact stored row isRow
  cases legal with
  | nothing => exact stored
  | advances copy row next job isCopy isCron later isRow same isJob =>
      by_cases isTask : copy.id = task.id
      · have moved : (after [.updateTask copy.id
            { nextRunAt := some (some next) }, .insertJob job] db).tasks.get
              copy.id = some { row with nextRunAt := some next } :=
          tasks_update_self isRow
        rw [isTask] at moved isRow
        intro found isFound
        rw [isTask, moved] at isFound
        obtain ⟨due, rfl⟩ := stored row isRow
        cases isFound
        exact ⟨next, rfl⟩
      · apply elsewhere
        intro write member
        simp only [List.mem_cons, List.not_mem_nil, or_false] at member
        rcases member with rfl | rfl
        · exact fun same => isTask (Option.some.inj same)
        · simp [Write.task]
  | creates copy job isCopy notCron isJob =>
      apply elsewhere
      simp [Write.task]
  | edits other columns loaded isCall =>
      subst isCall
      have isOther : other ≠ task.id := unedited
      apply elsewhere
      simpa [Write.task] using isOther

/-- A commit enqueues a job just when it moves the due time on. -/
theorem Fires.moves {before after : Db} {writes : List Write} {due : Time}
    (fires : Fires cfg task.id before after writes)
    (isDue : before.due task.id = some due) :
    enqueued task.id writes =
      [(⟨call, before, after, writes⟩ : Committed Db Write Call)].countP
        (movesOn task.id) := by
  rcases fires.due due isDue with ⟨none, same⟩ | ⟨one, next, later, moved⟩
  · simp [movesOn, isDue, same, none]
  · simp [movesOn, isDue, moved, later, one]

end Steps

/-! ## Runs -/

section Runs

variable {cfg : Config} {task : Task} {n : Nat}
variable {state next : State Db Write Lock Call Return n}
variable {action : Action Write Call n}
variable {trace : List (Committed Db Write Call)}

/-- What is known of a task that nobody edits and of its jobs so far. -/
structure Redated (cfg : Config) (task : Task)
    (state : State Db Write Lock Call Return n)
    (trace : List (Committed Db Write Call)) : Prop where
  known : Known task.Dates (Unedited task) task.id state
  stored : ∃ due, state.db.tasks.get task.id =
    some { task with nextRunAt := some due }
  order : InOrder cfg task.id state.db trace
  counted : jobsEnqueued task.id state = trace.countP (movesOn task.id)

/-- A call is given copies of the task as it is stored. -/
theorem unedited_starts (permitted : UneditedStep task state action)
    (process : Fin n) (call : Call) (isStart : action = .start process call) :
    Unedited task call ∧ ∀ copy, Copy call [] copy → copy.id = task.id →
      task.Dates copy := by
  rw [isStart] at permitted
  refine ⟨permitted, ?_⟩
  intro copy isCopy isTask
  cases call with
  | runDueTasks queueNames => cases isCopy
  | enqueueForScheduledTask given =>
      have same : copy = given := isCopy
      exact same ▸ permitted (same ▸ isTask)
  | runClaimedTasks => exact isCopy.elim
  | executorRunDueTasks => exact isCopy.elim
  | updateScheduledTask other columns => exact isCopy.elim

theorem Redated.commits (redated : Redated cfg task state trace)
    (isStandalone : cfg.backend = .standalone)
    (expression : task.cronExpression ≠ "") {process : Fin n} {call : Call}
    (committed : Setting.Commits (scheduler cfg) state next action process
      call) :
    Redated cfg task next (trace ++ System.commits state next) := by
  have isCall := committed.isCall
  obtain ⟨_, legal⟩ := committed.promised
  have unedited := redated.known.made process call isCall
  have isCron (row : Task) (dates : task.Dates row) : cfg.isCron row = true :=
    dates.isCron isStandalone expression
  have isNext : after (state.session process).state.pending state.db =
      next.db := committed.db.symm
  have fires : Fires cfg task.id state.db next.db
      (state.session process).state.pending := by
    have fires := legal.fires (unedited.fair isStandalone expression)
      (fun row isRow => isCron row (redated.known.stored row isRow))
      fun copy isCopy isTask =>
        isCron copy (redated.known.copies process call copy isCall
          isCopy isTask)
    rwa [isNext] at fires
  have stored : Stored task.Dates task.id next.db := by
    have dates := legal.dates unedited redated.known.stored
    rwa [isNext] at dates
  obtain ⟨due, isRow⟩ := redated.stored
  have isDue : state.db.due task.id = some due := by
    rw [Db.due, isRow]
    rfl
  have still : ∃ later, next.db.due task.id = some later := by
    rcases fires.due due isDue with ⟨_, same⟩ | ⟨_, later, _, moved⟩
    · exact ⟨due, same⟩
    · exact ⟨later, moved⟩
  rw [committed.commits]
  refine {
    known := redated.known.commits committed stored
    stored := ?_
    order := redated.order.snoc fires
    counted := ?_ }
  · obtain ⟨later, isLater⟩ := still
    obtain ⟨row, isFound, _⟩ := Option.bind_eq_some_iff.mp isLater
    obtain ⟨now, rfl⟩ := stored row isFound
    exact ⟨now, isFound⟩
  · have jobs : jobsEnqueued task.id next = jobsEnqueued task.id state +
        enqueued task.id (state.session process).state.pending := by
      simp [jobsEnqueued, committed.journal]
    rw [jobs, redated.counted, List.countP_append]
    exact congrArg _ (fires.moves isDue)

theorem Redated.quiet (redated : Redated cfg task state trace)
    (permitted : UneditedStep task state action)
    (quiet : Setting.Quiet (scheduler cfg) state next action) :
    Redated cfg task next (trace ++ System.commits state next) := by
  have same : next.db.tasks.get task.id = state.db.tasks.get task.id :=
    tasks_of_drifts scheduler_ofTasks quiet.db
  rw [quiet.commits, List.append_nil]
  refine {
    known := redated.known.quiet (unedited_starts permitted) quiet
    stored := ?_
    order := ⟨redated.order.once, ?_, redated.order.fires⟩
    counted := ?_ }
  · rw [same]
    exact redated.stored
  · intro due fired
    rw [Db.due, same]
    exact redated.order.past due fired
  · rw [jobsEnqueued, quiet.journal]
    exact redated.counted

end Runs

/-- Whatever its type, a standalone task with a cron expression that nobody
edits keeps its columns but for the due time.  Each due time yields one job at
most, and there are as many jobs as times that the due time has moved on. -/
theorem once_fires_per_due {cfg : Config}
    (isStandalone : cfg.backend = .standalone) {n : Nat} {task : Task}
    {due : Time} (isDue : task.nextRunAt = some due)
    (expression : task.cronExpression ≠ "") {db : Db}
    (isRow : db.tasks.get task.id = some task)
    {state : State Db Write Lock Call Return n}
    {trace : List (Committed Db Write Call)}
    (run : (system cfg).Traces (UneditedStep task) (System.initial db) state
      trace) :
    (∃ now, state.db.tasks.get task.id =
      some { task with nextRunAt := some now }) ∧
    (∀ time, yielded task.id time trace ≤ 1) ∧
    jobsEnqueued task.id state = trace.countP (movesOn task.id) := by
  have isTask : task = { task with nextRunAt := some due } := by
    rw [← isDue]
  have stored : Stored task.Dates task.id db := by
    intro row isFound
    rw [isRow] at isFound
    cases isFound
    exact ⟨due, isTask⟩
  have redated : Redated cfg task state trace := by
    apply Setting.VerifiedFor.inductTrace (scheduler_verified isStandalone)
      _ trivial _ _ run
    · intro _ _ call unedited
      exact (Unedited.fair unedited isStandalone expression).ofScheduler
    · refine {
        known := known_initial stored
        stored := ⟨due, isTask ▸ isRow⟩
        order := ⟨fun _ => Nat.zero_le _, ?_, by simp⟩
        counted := rfl }
      exact fun _ fired => absurd fired (lt_irrefl 0)
    · intro state action next trace good _ redated permitted taken
      rcases good.act_cases taken with ⟨process, call, committed⟩ | quiet
      · exact redated.commits isStandalone expression committed
      · exact redated.quiet permitted quiet
  exact ⟨redated.stored, redated.order.once, redated.counted⟩

theorem unedited_of_check {n : Nat} {task : Task}
    (state : State Db Write Lock Call Return n) (action : Action Write Call n)
    (checked : isRunDueTasks state action = true) :
    UneditedStep task state action := by
  cases action with
  | start process call =>
      cases call with
      | runDueTasks queueNames => trivial
      | _ => cases checked
  | _ => trivial

/-- A task that should run once, and has been due since the beginning. -/
def oneTime : Task where
  id := 1
  scheduleType := .once
  cronExpression := "* * * * *"
  nextRunAt := some 0

/-- A scheduler ticks, and again a minute later. -/
def minuteApart : List (Action Write Call 1) :=
  Action.calls 0 (.runDueTasks none) 15 ++ [.ambient (.tick 60000000)] ++
    Action.calls 0 (.runDueTasks none) 15

theorem once_fires_per_due_minuteApart :
    ∃ state trace,
      (system onPostgresql).Traces (n := 1) (UneditedStep oneTime)
        (System.initial (withTask oneTime)) state trace ∧
      jobsEnqueued 1 state = 2 ∧
      state.db.tasks.get 1 =
        some { oneTime with nextRunAt := some 120000000 } ∧
      jobsEnqueued 1 state = trace.countP (movesOn 1) := by
  have ran : ((system onPostgresql).traceWhile isRunDueTasks
      (System.initial (withTask oneTime)) [] minuteApart).map
        (fun run => (jobsEnqueued 1 run.1, run.1.db.tasks.get 1)) =
          some (2, some { oneTime with nextRunAt := some 120000000 }) := by
    decide +kernel
  obtain ⟨⟨state, trace⟩, isRun, seen⟩ := Option.map_eq_some_iff.mp ran
  have run : (system onPostgresql).Traces (UneditedStep oneTime)
      (System.initial (withTask oneTime)) state trace :=
    (system onPostgresql).traces_of_traceWhile unedited_of_check .refl isRun
  obtain ⟨two, isRow⟩ := Prod.mk.inj seen
  have counted := once_fires_per_due rfl rfl (by decide) rfl run
  exact ⟨state, trace, run, two, isRow, counted.2.2⟩

/-- The job of the first tick succeeds before the second one. -/
def jobBetween : List (Action Write Call 1) :=
  Action.calls 0 (.runDueTasks none) 11 ++ [.ambient (.finish 0 .success)] ++
    Action.calls 0 (.runDueTasks none) 11

/-- A task that is to run once enqueues two jobs, with a cron expression and
without one, and is enabled still. -/
theorem once_fires_twice :
    (∃ state, (system onPostgresql).Reaches (n := 1) (UneditedStep oneTime)
        (System.initial (withTask oneTime)) state ∧
      jobsEnqueued 1 state = 2 ∧ isDisabled 1 state.db = false) ∧
    ∃ state, (system onPostgresql).Reaches (n := 1)
        (UneditedStep { oneTime with cronExpression := "" })
        (System.initial (withTask { oneTime with cronExpression := "" }))
        state ∧
      jobsEnqueued 1 state = 2 ∧ isDisabled 1 state.db = false := by
  constructor
  · have ran : ((system onPostgresql).runWhile isRunDueTasks
        (System.initial (withTask oneTime)) minuteApart).map
          (fun state => (jobsEnqueued 1 state, isDisabled 1 state.db)) =
            some (2, false) := by
      decide +kernel
    obtain ⟨state, isRun, seen⟩ := Option.map_eq_some_iff.mp ran
    exact ⟨state, (system onPostgresql).reaches_of_runWhile
      unedited_of_check isRun, (Prod.mk.inj seen).1, (Prod.mk.inj seen).2⟩
  · have ran : ((system onPostgresql).runWhile isRunDueTasks
        (System.initial (withTask { oneTime with cronExpression := "" }))
          jobBetween).map
          (fun state => (jobsEnqueued 1 state, isDisabled 1 state.db)) =
            some (2, false) := by
      decide +kernel
    obtain ⟨state, isRun, seen⟩ := Option.map_eq_some_iff.mp ran
    exact ⟨state, (system onPostgresql).reaches_of_runWhile
      unedited_of_check isRun, (Prod.mk.inj seen).1, (Prod.mk.inj seen).2⟩

end Sqlery.Scheduling
