import Sqlery.Scheduling.Copies

/-!
# A due time fires once

However many schedulers process a cron task, and however old the copies they
go by, a stored due time yields one job at most: whoever commits the job has
replaced the due time by a later one in the same transaction.
-/

namespace Sqlery.Scheduling

open ReadCommitted
open Script

/-- The due time a task has. -/
def Db.due (db : Db) (task : Nat) : Option Time :=
  (db.tasks.get task).bind Task.nextRunAt

/-- Nobody edits the due time of the task, nor takes its cron expression away,
and the copies of it are copies of a cron task. -/
def Fair (cfg : Config) (task : Nat) : Call → Prop
  | .runDueTasks _ => True
  | .enqueueForScheduledTask copy => copy.id = task → cfg.isCron copy = true
  | .updateScheduledTask other columns => other = task →
      columns.nextRunAt = none ∧ columns.cronExpression ≠ some ""
  | _ => False

/-- Any number of schedulers and operators, with crashes anywhere. -/
def FairStep {n : Nat} (cfg : Config) (task : Nat)
    (_ : State Db Write Lock Call Return n) : Action Write Call n → Prop
  | .start _ call => Fair cfg task call
  | _ => True

section Steps

variable {cfg : Config} {task : Nat} {call : Call} {db : Db}

theorem Fair.ofScheduler (fair : Fair cfg task call) : call.OfScheduler := by
  cases call with
  | runDueTasks queueNames => trivial
  | enqueueForScheduledTask copy => trivial
  | runClaimedTasks => exact fair
  | executorRunDueTasks => exact fair
  | updateScheduledTask other columns => trivial

/-- The task is a cron task in the database. -/
def StoredCron (cfg : Config) (task : Nat) (db : Db) : Prop :=
  ∀ row, db.tasks.get task = some row → cfg.isCron row = true

/-- A commit about the task either leaves its due time and enqueues nothing, or
moves the due time and enqueues a job. -/
structure Fires (cfg : Config) (task : Nat) (before after : Db)
    (writes : List Write) : Prop where
  due : ∀ due, before.due task = some due →
    (enqueued task writes = 0 ∧ after.due task = some due) ∨
      (enqueued task writes = 1 ∧
        ∃ next, due < next ∧ after.due task = some next)
  cron : StoredCron cfg task after

theorem fires_of_unchanged {writes : List Write}
    (cron : StoredCron cfg task db) (none : enqueued task writes = 0)
    (same : (after writes db).tasks.get task = db.tasks.get task) :
    Fires cfg task db (after writes db) writes := by
  constructor
  · intro due isDue
    left
    refine ⟨none, ?_⟩
    rw [Db.due, same]
    exact isDue
  · intro row isRow
    exact cron row (same ▸ isRow)

/-- An edit that leaves a cron expression leaves a cron task. -/
theorem isCron_edited {columns : Columns} {loaded row : Task}
    (keeps : columns.cronExpression ≠ some "")
    (isCron : cfg.isCron row = true) :
    cfg.isCron ((columns.changed loaded).update row) = true := by
  have sameType : cfg.scheduleType ((columns.changed loaded).update row) =
      cfg.scheduleType row := by
    unfold Config.scheduleType
    split <;> rfl
  simp only [Config.isCron, sameType, Bool.and_eq_true, decide_eq_true_eq]
    at isCron ⊢
  refine ⟨isCron.1, ?_⟩
  cases edited : columns.cronExpression.filter
      (· ≠ loaded.cronExpression) with
  | none =>
      simp only [Columns.update, Columns.changed, edited, Option.getD_none]
      exact isCron.2
  | some expression =>
      have given := (Option.filter_eq_some_iff.mp edited).1
      simp only [Columns.update, Columns.changed, edited, Option.getD_some]
      intro isEmpty
      exact keeps (isEmpty ▸ given)

/-- What a legal commit does to a cron task. -/
theorem Legal.fires {noted writes : List Write}
    (legal : Legal cfg call db noted writes) (fair : Fair cfg task call)
    (cron : StoredCron cfg task db)
    (copies : ∀ copy, Copy call noted copy → copy.id = task →
      cfg.isCron copy = true) :
    Fires cfg task db (after writes db) writes := by
  cases legal with
  | nothing => exact fires_of_unchanged cron rfl rfl
  | advances copy row next job isCopy isCron later isRow same isJob =>
      by_cases isTask : copy.id = task
      · subst isTask
        have moved : (after [.updateTask copy.id
            { nextRunAt := some (some next) }, .insertJob job] db).tasks.get
              copy.id = some { row with nextRunAt := some next } :=
          tasks_update_self isRow
        constructor
        · intro due isDue
          right
          refine ⟨?_, next, ?_, ?_⟩
          · simp [enqueued, Write.enqueues, isJob]
          · apply later
            rw [← same]
            simpa [Db.due, isRow] using isDue
          · rw [Db.due, moved]
            rfl
        · intro found isFound
          rw [moved] at isFound
          cases isFound
          exact cron row isRow
      · apply fires_of_unchanged cron
        · simp [enqueued, Write.enqueues, of_other isJob isTask]
        · apply tasks_after_of_ne
          intro write member
          simp only [List.mem_cons, List.not_mem_nil, or_false] at member
          rcases member with rfl | rfl
          · exact fun same => isTask (Option.some.inj same)
          · simp [Write.task]
  | creates copy job isCopy notCron isJob =>
      have isOther : copy.id ≠ task := by
        intro isTask
        rw [copies copy isCopy isTask] at notCron
        cases notCron
      apply fires_of_unchanged cron
      · simp [enqueued, Write.enqueues, of_other isJob isOther]
      · rfl
  | edits other columns loaded isCall =>
      subst isCall
      by_cases isTask : other = task
      · obtain ⟨keepsDue, keepsCron⟩ := fair isTask
        subst isTask
        cases isRow : db.tasks.get other with
        | none =>
            apply fires_of_unchanged cron rfl
            simp [after, Schema.applyAll, schema, Write.apply, Db.update,
              isRow]
        | some row =>
            have edited : (after [.updateTask other (columns.changed loaded)]
                db).tasks.get other =
                  some ((columns.changed loaded).update row) :=
              tasks_update_self isRow
            have isCron := cron row isRow
            constructor
            · intro due isDue
              left
              refine ⟨rfl, ?_⟩
              rw [Db.due, edited]
              simpa [Db.due, isRow, Columns.update, Columns.changed, keepsDue]
                using isDue
            · intro found isFound
              rw [edited] at isFound
              cases isFound
              exact isCron_edited keepsCron isCron
      · apply fires_of_unchanged cron rfl
        apply tasks_after_of_ne
        simpa [Write.task] using isTask

end Steps

/-! ## Runs -/

section Runs

variable {cfg : Config} {task : Nat} {n : Nat}
variable {state next : State Db Write Lock Call Return n}
variable {action : Action Write Call n}

/-- How many jobs of the task a due time has yielded. -/
def yielded (task : Nat) (due : Time) (trace : List (Committed Db Write Call)) :
    Nat :=
  ((trace.filter fun commit => commit.before.due task = some due).map
    fun commit => enqueued task commit.writes).sum

theorem yielded_snoc (due : Time) (trace : List (Committed Db Write Call))
    (commit : Committed Db Write Call) :
    yielded task due (trace ++ [commit]) = yielded task due trace +
      if commit.before.due task = some due then enqueued task commit.writes
      else 0 := by
  unfold yielded
  by_cases isDue : commit.before.due task = some due <;>
    simp [List.filter_append, isDue]

/-- What the sessions of a run know about a cron task. -/
abbrev KnownCron (cfg : Config) (task : Nat)
    (state : State Db Write Lock Call Return n) : Prop :=
  Known (fun row => cfg.isCron row = true) (Fair cfg task) task state

/-- A call is given copies of a cron task alone. -/
theorem fair_starts (permitted : FairStep cfg task state action)
    (process : Fin n) (call : Call) (isStart : action = .start process call) :
    Fair cfg task call ∧ ∀ copy, Copy call [] copy → copy.id = task →
      cfg.isCron copy = true := by
  rw [isStart] at permitted
  refine ⟨permitted, ?_⟩
  intro copy isCopy isTask
  cases call with
  | runDueTasks queueNames => cases isCopy
  | enqueueForScheduledTask given =>
      have same : copy = given := isCopy
      exact same ▸ permitted (same ▸ isTask)
  | runClaimedTasks => exact isCopy.elim
  | executorRunDueTasks => exact isCopy.elim
  | updateScheduledTask other columns => exact isCopy.elim

/-- A commit fires the task at most once and for a due time that is gone
then. -/
theorem KnownCron.fires (known : KnownCron cfg task state) {process : Fin n}
    {call : Call}
    (committed : Setting.Commits (scheduler cfg) state next action process
      call) :
    Fires cfg task state.db next.db
      (state.session process).state.pending := by
  have isCall := committed.isCall
  obtain ⟨_, legal⟩ := committed.promised
  have fires := legal.fires (known.made process call isCall) known.stored
    (known.copies process call · isCall)
  have isNext : after (state.session process).state.pending state.db =
      next.db := committed.db.symm
  rwa [isNext] at fires

/-- What has been committed so far is in order. -/
structure InOrder (cfg : Config) (task : Nat) (db : Db)
    (trace : List (Committed Db Write Call)) : Prop where
  once : ∀ due, yielded task due trace ≤ 1
  past : ∀ due, 0 < yielded task due trace →
    ∃ now, db.due task = some now ∧ due < now
  fires : ∀ commit ∈ trace,
    Fires cfg task commit.before commit.after commit.writes

theorem InOrder.snoc {trace : List (Committed Db Write Call)} {call : Call}
    {before after : Db} {writes : List Write}
    (order : InOrder cfg task before trace)
    (fires : Fires cfg task before after writes) :
    InOrder cfg task after (trace ++ [⟨call, before, after, writes⟩]) := by
  constructor
  · intro due
    rw [yielded_snoc]
    simp only
    split
    · rename_i isDue
      -- a due time that has fired before is not the stored one any more
      have fresh : yielded task due trace = 0 := by
        by_contra fired
        obtain ⟨now, isNow, later⟩ :=
          order.past due (Nat.pos_of_ne_zero fired)
        rw [isDue] at isNow
        cases isNow
        exact lt_irrefl _ later
      rcases fires.due due isDue with ⟨none, _⟩ | ⟨one, _⟩ <;> omega
    · exact order.once due
  · intro due fired
    rw [yielded_snoc] at fired
    split at fired
    · rename_i isDue
      rcases fires.due due isDue with ⟨none, still⟩ | ⟨_, next, later, moved⟩
      · rw [none, Nat.add_zero] at fired
        obtain ⟨now, isNow, before⟩ := order.past due fired
        rw [isDue] at isNow
        cases isNow
        exact absurd before (lt_irrefl _)
      · exact ⟨next, moved, later⟩
    · obtain ⟨now, isNow, before⟩ := order.past due fired
      rcases fires.due now isNow with ⟨_, still⟩ | ⟨_, next, later, moved⟩
      · exact ⟨now, still, before⟩
      · exact ⟨next, moved, before.trans later⟩
  · intro other member
    rcases List.mem_append.mp member with earlier | now
    · exact order.fires other earlier
    · rw [List.mem_singleton.mp now]
      exact fires

end Runs

/-- Every stored due time of a cron task yields at most one job.  A commit
that enqueues a job of the task moves its due time to a later one, and a commit
that moves the due time enqueues a job. -/
theorem cron_fires_once {cfg : Config}
    (isStandalone : cfg.backend = .standalone)
    {n : Nat} {task : Nat} {db : Db} (isCron : StoredCron cfg task db)
    {state : State Db Write Lock Call Return n}
    {trace : List (Committed Db Write Call)}
    (run : (system cfg).Traces (FairStep cfg task) (System.initial db) state
      trace) :
    (∀ due, yielded task due trace ≤ 1) ∧
      ∀ commit ∈ trace, ∀ due, commit.before.due task = some due →
        (enqueued task commit.writes = 0 ∧
            commit.after.due task = some due) ∨
          (enqueued task commit.writes = 1 ∧
            ∃ next, due < next ∧ commit.after.due task = some next) := by
  have holds : KnownCron cfg task state ∧ InOrder cfg task state.db trace := by
    apply Setting.VerifiedFor.inductTrace (scheduler_verified isStandalone)
      _ trivial _ _ run
    · intro _ _ call fair
      exact Fair.ofScheduler fair
    · refine ⟨known_initial isCron, ?_, ?_, ?_⟩
      · exact fun _ => Nat.zero_le _
      · exact fun _ fired => absurd fired (lt_irrefl 0)
      · simp
    · intro state action next trace good _ holds permitted taken
      obtain ⟨known, order⟩ := holds
      rcases good.act_cases taken with ⟨process, call, committed⟩ | quiet
      · have fires := known.fires committed
        rw [committed.commits]
        exact ⟨known.commits committed fires.cron, order.snoc fires⟩
      · have same : next.db.tasks.get task = state.db.tasks.get task :=
          tasks_of_drifts scheduler_ofTasks quiet.db
        rw [quiet.commits, List.append_nil]
        refine ⟨known.quiet (fair_starts permitted) quiet, order.once, ?_,
          order.fires⟩
        intro due fired
        rw [Db.due, same]
        exact order.past due fired
  exact ⟨holds.2.once, fun commit member => (holds.2.fires commit member).due⟩

/-- The standalone backend on PostgreSQL. -/
def onPostgresql : Config := { dialect := .postgresql, backend := .standalone }

/-- A task that has been due since the beginning. -/
def everyMinute : Task where
  id := 1
  cronExpression := "* * * * *"
  nextRunAt := some 0

def withTask (task : Task) : Db := { tasks := Table.empty.insert task }

def isRunDueTasks {n : Nat} (_ : State Db Write Lock Call Return n) :
    Action Write Call n → Bool
  | .start _ (.runDueTasks _) => true
  | .start _ _ => false
  | _ => true

theorem fair_of_check (cfg : Config) {n task : Nat}
    (state : State Db Write Lock Call Return n) (action : Action Write Call n)
    (checked : isRunDueTasks state action = true) :
    FairStep cfg task state action := by
  cases action with
  | start process call =>
      cases call with
      | runDueTasks queueNames => trivial
      | _ => cases checked
  | _ => trivial

/-- Two schedulers read the task before either of them advances it. -/
def overlapping : List (Action Write Call 2) :=
  Action.calls 0 (.runDueTasks none) 4 ++
    Action.calls 1 (.runDueTasks none) 4 ++ List.replicate 11 (.step 0) ++
    List.replicate 3 (.step 1)

theorem cron_fires_once_overlapping :
    ∃ state trace,
      (system onPostgresql).Traces (n := 2) (FairStep onPostgresql 1)
        (System.initial (withTask everyMinute)) state trace ∧
      state.db.due 1 = some 60000000 ∧ yielded 1 0 trace = 1 ∧
      ∀ due, yielded 1 due trace ≤ 1 := by
  have ran : ((system onPostgresql).traceWhile isRunDueTasks
      (System.initial (withTask everyMinute)) [] overlapping).map
        (fun run => (run.1.db.due 1, yielded 1 0 run.2)) =
          some (some 60000000, 1) := by
    decide +kernel
  obtain ⟨⟨state, trace⟩, isRun, seen⟩ := Option.map_eq_some_iff.mp ran
  have run : (system onPostgresql).Traces (FairStep onPostgresql 1)
      (System.initial (withTask everyMinute)) state trace :=
    (system onPostgresql).traces_of_traceWhile
      (fair_of_check onPostgresql) .refl isRun
  have isCron : StoredCron onPostgresql 1 (withTask everyMinute) := by
    intro row isRow
    have same : some everyMinute = some row := isRow
    cases same
    decide +kernel
  refine ⟨state, trace, run, ?_, ?_, ?_⟩
  · exact (Prod.mk.inj seen).1
  · exact (Prod.mk.inj seen).2
  · exact (cron_fires_once rfl isCron run).1

end Sqlery.Scheduling
