import Mathlib.Data.List.Sort
import Sqlery.ReadCommitted.Rows
import Sqlery.Scheduling.Cron
import Sqlery.Standalone.Store

/-!
# Scheduled tasks

The table `sqlery_scheduled_task`, the jobs its tasks enqueue, and the three
schedulers: `Scheduler.run_due_tasks` on the standalone and on the Django
backend, `scheduler_tasks.run_due_tasks`, and Django's
`TaskExecutor.run_due_tasks`.

Of a job only its task and its status matter here.  The workers, the retries
and the clean-up act on jobs by themselves: they are writes of the environment.
The remarks record the due tasks a call read.  Nothing depends on them.
-/

namespace Sqlery.Scheduling

open ReadCommitted
open Script
open Standalone (Dialect)

inductive ScheduleType where
  | cron
  | interval
  | once
  | other
  deriving DecidableEq, Repr

/-- A row of the table, in Django's columns; the standalone `ScheduledTask` has
neither type, interval nor limit.  `cron_expression` is empty where Django has
`NULL`. -/
structure Task where
  id : Nat
  taskPath : String := ""
  kwargs : String := "{}"
  queueName : String := "default"
  priority : Int := 0
  scheduleType : ScheduleType := .cron
  cronExpression : String := ""
  /-- `get_interval_seconds()`. -/
  intervalSeconds : Nat := 0
  repeat_ : Option Nat := none
  enabled : Bool := true
  nextRunAt : Option Time := none
  deriving DecidableEq, Repr

/-- A job, live or finished. -/
structure TaskJob where
  id : Nat
  spec : JobSpec
  status : Status := .queued
  deriving DecidableEq, Repr

def TaskJob.of (task : Nat) (job : TaskJob) : Bool :=
  job.spec.scheduledTaskId = some task

structure Db where
  tasks : Table Task.id := .empty
  live : List TaskJob := []
  history : List TaskJob := []
  nextJob : Nat := 0
  clock : Time := 0

/-- The columns an `UPDATE` of a task sets. -/
structure Columns where
  taskPath : Option String := none
  queueName : Option String := none
  priority : Option Int := none
  cronExpression : Option String := none
  enabled : Option Bool := none
  nextRunAt : Option (Option Time) := none
  deriving DecidableEq, Repr

def Columns.update (columns : Columns) (task : Task) : Task :=
  { task with
    taskPath := columns.taskPath.getD task.taskPath
    queueName := columns.queueName.getD task.queueName
    priority := columns.priority.getD task.priority
    cronExpression := columns.cronExpression.getD task.cronExpression
    enabled := columns.enabled.getD task.enabled
    nextRunAt := columns.nextRunAt.getD task.nextRunAt }

/-- The columns that are set to something else than was loaded. -/
def Columns.changed (columns : Columns) (loaded : Task) : Columns where
  taskPath := columns.taskPath.filter (· ≠ loaded.taskPath)
  queueName := columns.queueName.filter (· ≠ loaded.queueName)
  priority := columns.priority.filter (· ≠ loaded.priority)
  cronExpression := columns.cronExpression.filter (· ≠ loaded.cronExpression)
  enabled := columns.enabled.filter (· ≠ loaded.enabled)
  nextRunAt := columns.nextRunAt.filter (· ≠ loaded.nextRunAt)

inductive Remark where
  /-- A task of the list of due tasks. -/
  | due (task : Task)
  deriving DecidableEq, Repr

inductive Write where
  | updateTask (task : Nat) (columns : Columns)
  | insertJob (job : TaskJob)
  | nextJob
  | tick (elapsed : Nat)
  /-- A worker changes the status of a live job. -/
  | progress (job : Nat) (status : Status)
  /-- A job ends and moves into history. -/
  | finish (job : Nat) (status : Status)
  /-- A retry copies a job, with its task. -/
  | retry (job : Nat)
  /-- Retention deletes a history row. -/
  | expire (job : Nat)
  | remark (remark : Remark)
  deriving DecidableEq, Repr

inductive Lock where
  | task (task : Nat)
  | writer
  deriving DecidableEq, Repr

/-- Every job stored for a task, live and finished (`all_jobs`). -/
def Db.allJobs (db : Db) (task : Nat) : List TaskJob :=
  (db.live ++ db.history).filter (TaskJob.of task)

def Db.update (db : Db) (task : Nat) (columns : Columns) : Db :=
  match db.tasks.get task with
  | some row => { db with tasks := db.tasks.set (columns.update row) }
  | none => db

def Write.apply : Write → Db → Db
  | .updateTask task columns, db => db.update task columns
  | .insertJob job, db => { db with live := db.live ++ [job] }
  | .nextJob, db => { db with nextJob := db.nextJob + 1 }
  | .tick elapsed, db => { db with clock := db.clock + elapsed }
  | .progress id status, db =>
      { db with
        live := db.live.map fun job =>
          if job.id = id then { job with status } else job }
  | .finish id status, db =>
      { db with
        live := db.live.filter fun job => job.id ≠ id
        history := db.history ++
          (db.live.filter fun job => job.id = id).map fun job =>
            { job with status } }
  | .retry id, db =>
      match (db.live ++ db.history).find? fun job => job.id = id with
      | some job =>
          { db with
            live := db.live ++ [{
              id := db.nextJob
              spec := { job.spec with parentJobId := some job.id } }]
            nextJob := db.nextJob + 1 }
      | none => db
  | .expire id, db =>
      { db with history := db.history.filter fun job => job.id ≠ id }
  | .remark _, db => db

/-- The lock of a task's row; SQLite has one lock for all writers. -/
def lockOf (dialect : Dialect) (task : Nat) : Lock :=
  match dialect with
  | .postgresql => .task task
  | .sqlite => .writer

def writerOf (dialect : Dialect) : Option Lock :=
  match dialect with
  | .postgresql => none
  | .sqlite => some .writer

def schema (dialect : Dialect) : Schema Db Write Lock where
  apply := Write.apply
  guards
    | .updateTask task _ => [lockOf dialect task]
    | .insertJob _ => (writerOf dialect).toList
    | _ => []
  conflicts left right := left = right
  conflicts_symm left right := by simp [eq_comm]

inductive Backend where
  | standalone
  | django
  deriving DecidableEq, Repr

structure Config where
  dialect : Dialect
  backend : Backend
  parseSolar : String → Option Solar := fun _ => none

inductive Exc where
  /-- `InvalidExpression`, and whatever else the cron search raises. -/
  | invalidExpression
  /-- `AttributeError` on a missing due time. -/
  | attribute
  /-- `StaleDataError`, `DatabaseError`: an `UPDATE` of one row matched none. -/
  | stale
  /-- `DoesNotExist`, or a refresh that finds no row. -/
  | missing
  deriving DecidableEq, Repr

abbrev Sql (α : Type) : Type 1 := Script Db Write Lock Exc α

/-! ## Statements -/

def currentTime : Sql Time := read Db.clock

/-- `QueuedJob.status.in_(["queued", "running"])` for the task's live jobs. -/
def isPending (task : Nat) (db : Db) : Bool :=
  db.live.any fun job =>
    job.of task && (job.status = .queued || job.status = .running)

/-- `has_pending_job_for_scheduled_task`. -/
def hasPendingJobForScheduledTask (cfg : Config) (task : Nat) : Sql Bool :=
  match cfg.backend with
  | .standalone => session (read (isPending task))
  | .django => read (isPending task)

/-- The order of due times. -/
def runsBefore (left right : Task) : Prop :=
  left.nextRunAt.getD 0 ≤ right.nextRunAt.getD 0

instance : DecidableRel runsBefore := fun left right =>
  inferInstanceAs (Decidable (left.nextRunAt.getD 0 ≤ right.nextRunAt.getD 0))

def isDue (now : Time) (task : Task) : Bool :=
  task.enabled && task.nextRunAt.any fun due => due ≤ now

def dueTasks (now : Time) (db : Db) : List Task :=
  (db.tasks.rows.filter (isDue now)).insertionSort runsBefore

def getDueScheduledTasks : Sql (List Task) := do
  let now ← currentTime
  observe (dueTasks now) fun tasks =>
    tasks.map fun task => .remark (.due task)

def updateTasks (cfg : Config) (admits : Task → Bool) (columns : Columns) :
    Sql Nat := do
  let rows ← exec (modifyRows Db.tasks (writerOf cfg.dialect) admits
    fun task => .updateTask task.id columns)
  pure rows.length

/-- The `UPDATE` of one row that must be there. -/
def updateOne (cfg : Config) (task : Nat) (columns : Columns) : Sql Unit := do
  let updated ← updateTasks cfg (fun row => row.id = task) columns
  if updated = 1 then pure () else raise .stale

/-- The flush of a loaded task: only what has changed is written. -/
def flush (cfg : Config) (loaded : Task) (columns : Columns) : Sql Unit :=
  if columns.changed loaded = {} then pure ()
  else updateOne cfg loaded.id (columns.changed loaded)

/-- The new row of a job, with an id of its own. -/
def insertJob (cfg : Config) (spec : JobSpec) : Sql TaskJob := do
  let id ← exec fun _ current _ =>
    some { result := current.nextJob, atOnce := [.nextJob] }
  exec fun _ _ _ =>
    some {
      result := { id, spec }
      writes := [.insertJob { id, spec }]
      locks := (writerOf cfg.dialect).toList }

/-- `session.refresh(job)`. -/
def refresh (job : TaskJob) : Sql TaskJob := do
  match ← read fun db => db.live.find? fun row => row.id = job.id with
  | some row => pure row
  | none => raise .missing

/-! ## The backends -/

/-- `create_job` for a job without a name and a time: on the standalone
backend a transaction of its own. -/
def createJob (cfg : Config) (spec : JobSpec) : Sql TaskJob :=
  match cfg.backend with
  | .standalone =>
      session do
        let job ← insertJob cfg spec
        commit
        refresh job
  | .django => insertJob cfg spec

/-- `update_scheduled_task`.  `update_scheduled_task_next_run` is the same for
its one column. -/
def updateScheduledTask (cfg : Config) (task : Nat) (columns : Columns) :
    Sql Unit :=
  match cfg.backend with
  | .standalone =>
      session do
        match ← read fun db => db.tasks.get task with
        | none => pure ()
        | some row => do
            flush cfg row columns
            commit
  | .django => do
      let _ ← updateTasks cfg (fun row => row.id = task) columns
      pure ()

/-- PostgreSQL: the row is locked, then compared. -/
def advanceLocked (cfg : Config) (task : Nat) (observed : Option Time)
    (next : Time) (spec : JobSpec) : Sql (Option TaskJob) := do
  let rows ← exec (lockRows Db.tasks (fun row => .task row.id)
    fun row => row.id = task)
  match rows.head? with
  | none => pure none
  | some existing =>
      match existing.nextRunAt with
      | none => pure none
      | some existingDue =>
          if !existing.enabled then pure none
          else
            match observed with
            | none => raise .attribute
            | some observed =>
                if existingDue ≠ observed then pure none
                else do
                  flush cfg existing { nextRunAt := some (some next) }
                  let job ← insertJob cfg spec
                  commit
                  some <$> refresh job

/-- The compare-and-set on the observed due time. -/
def winsAdvance (task : Nat) (observed : Option Time) (row : Task) : Bool :=
  row.id = task && row.nextRunAt = observed && row.enabled

/-- SQLite: the comparison is in the `UPDATE`. -/
def advanceCompared (cfg : Config) (task : Nat) (observed : Option Time)
    (next : Time) (spec : JobSpec) : Sql (Option TaskJob) := do
  let advanced ← updateTasks cfg (winsAdvance task observed)
    { nextRunAt := some (some next) }
  if advanced ≠ 1 then do
    rollback
    pure none
  else do
    let job ← insertJob cfg spec
    commit
    some <$> refresh job

/-- Django, inside the transaction of its caller. -/
def advanceDjango (cfg : Config) (task : Nat) (observed : Option Time)
    (next : Time) (spec : JobSpec) : Sql (Option TaskJob) := do
  let advanced ← updateTasks cfg (winsAdvance task observed)
    { nextRunAt := some (some next) }
  if advanced ≠ 1 then pure none
  else some <$> createJob cfg spec

def advanceScheduledTaskIfDue (cfg : Config) (task : Nat)
    (observed : Option Time) (next : Time) (spec : JobSpec) :
    Sql (Option TaskJob) :=
  match cfg.backend, cfg.dialect with
  | .standalone, .postgresql =>
      session (advanceLocked cfg task observed next spec)
  | .standalone, .sqlite =>
      session (advanceCompared cfg task observed next spec)
  | .django, _ => advanceDjango cfg task observed next spec

/-! ## `Scheduler` -/

/-- `job_kwargs`. -/
def Task.jobSpec (task : Task) : JobSpec where
  taskPath := task.taskPath
  kwargs := task.kwargs
  queueName := task.queueName
  priority := task.priority
  scheduledTaskId := some task.id

/-- `getattr(task, "schedule_type", "cron")`: the standalone table has no such
column. -/
def Config.scheduleType (cfg : Config) (task : Task) : ScheduleType :=
  match cfg.backend with
  | .standalone => .cron
  | .django => task.scheduleType

def Config.isCron (cfg : Config) (task : Task) : Bool :=
  (cfg.scheduleType task = .cron || cfg.scheduleType task = .other) &&
    task.cronExpression ≠ ""

/-- `calculate_next_run(expression, base_time)`. -/
def nextRun (cfg : Config) (expression : String) (base : Option Time) :
    Sql Time := do
  let begun ← currentTime
  let now ← currentTime
  match calculateNextRun cfg.parseSolar expression (base.getD begun) now with
  | some next => pure next
  | none => raise .invalidExpression

/-- What follows the creation of a job that is not a cron task's. -/
def reschedule (cfg : Config) (task : Task) : Sql Unit :=
  match cfg.scheduleType task with
  | .interval =>
      if 0 < task.intervalSeconds then do
        let now ← currentTime
        updateScheduledTask cfg task.id
          { nextRunAt := some (some (now + seconds task.intervalSeconds)) }
      else pure ()
  | .once =>
      updateScheduledTask cfg task.id
        { enabled := some false, nextRunAt := some none }
  | _ => pure ()

/-- `Scheduler._enqueue_for_scheduled_task`. -/
def enqueueForScheduledTask (cfg : Config) (task : Task) :
    Sql (Option TaskJob) :=
  if cfg.isCron task then do
    let next ← nextRun cfg task.cronExpression task.nextRunAt
    advanceScheduledTaskIfDue cfg task.id task.nextRunAt next task.jobSpec
  else do
    if ← hasPendingJobForScheduledTask cfg task.id then pure none
    else do
      let job ← createJob cfg task.jobSpec
      reschedule cfg task
      pure (some job)

/-- A task is processed in `idle_transaction()`: nothing on the standalone
backend, an atomic block on Django. -/
def idleTransaction (cfg : Config) (body : Sql (Option TaskJob)) :
    Sql (Option TaskJob) :=
  match cfg.backend with
  | .standalone => body
  | .django =>
      session do
        let job ← body
        commit
        pure job

/-- `Scheduler.run_due_tasks`. -/
def runDueTasks (cfg : Config) (queueNames : Option (List String)) :
    Sql Unit := do
  let dueTasks ← getDueScheduledTasks
  let dueTasks := dueTasks.filter fun task =>
    queueNames.all fun names => task.queueName ∈ names
  each (fun task =>
    quietly (idleTransaction cfg (enqueueForScheduledTask cfg task))) dueTasks

/-! ## `scheduler_tasks` -/

/-- `claim_due_scheduled_task`: the lock is gone when the call returns. -/
def claimDueScheduledTask (cfg : Config) (task : Nat) : Sql (Option Task) :=
  session do
    let now ← currentTime
    let admits : Task → Bool := fun row => row.id = task && isDue now row
    match cfg.dialect with
    | .postgresql => do
        let rows ← exec (lockFreeRows Db.tasks (fun row => .task row.id)
          admits)
        pure rows.head?
    | .sqlite => read fun db => db.tasks.rows.find? admits

def advanceTask (cfg : Config) (task : Task) : Sql Unit := do
  let now ← currentTime
  match cfg.scheduleType task with
  | .cron =>
      match nextCronOccurrence cfg.parseSolar task.cronExpression now with
      | some next =>
          updateScheduledTask cfg task.id { nextRunAt := some (some next) }
      | none => raise .invalidExpression
  | .interval =>
      updateScheduledTask cfg task.id
        { nextRunAt := some (some (now + seconds task.intervalSeconds)) }
  | .once =>
      updateScheduledTask cfg task.id
        { enabled := some false, nextRunAt := some none }
  | .other => pure ()

/-- On Django without a transaction around it every statement commits. -/
def autocommit {α : Type} (cfg : Config) (body : Sql α) : Sql α :=
  match cfg.backend with
  | .standalone => body
  | .django =>
      session do
        let result ← body
        commit
        pure result

/-- `scheduler_tasks.enqueue_for_scheduled_task`.  The limit of an interval
task is looked at and not enforced. -/
def enqueueClaimed (cfg : Config) (task : Task) : Sql Unit := do
  whenever (cfg.scheduleType task = .interval && task.repeat_.isSome) do
    let _ ← hasPendingJobForScheduledTask cfg task.id
    pure ()
  if ← hasPendingJobForScheduledTask cfg task.id then pure ()
  else do
    let _ ← autocommit cfg (createJob cfg task.jobSpec)
    autocommit cfg (advanceTask cfg task)

def runClaimedTasks (cfg : Config) : Sql Unit := do
  let dueTasks ← getDueScheduledTasks
  each (fun task => do
    match ← claimDueScheduledTask cfg task.id with
    | none => pure ()
    | some claimed => enqueueClaimed cfg claimed) dueTasks

/-! ## `TaskExecutor` -/

/-- The claim of a due task.  SQLite lets a transaction write only if nothing
was committed since it first read, so it has the writer lock from then on. -/
def claimTask (cfg : Config) (now : Time) (task : Nat) :
    Sql (Option Task) := do
  let admits : Task → Bool := fun row => row.id = task && isDue now row
  match cfg.dialect with
  | .postgresql => do
      let rows ← exec (lockFreeRows Db.tasks (fun row => .task row.id) admits)
      pure rows.head?
  | .sqlite =>
      exec fun _ current _ =>
        some {
          result := current.tasks.rows.find? admits
          locks := [.writer] }

/-- The time of the next run, and the columns it sets. -/
def executorColumns (cfg : Config) (task : Task) (now : Time) :
    Option Columns :=
  match task.scheduleType with
  | .cron =>
      (nextCronOccurrence cfg.parseSolar task.cronExpression now).map
        fun next => { nextRunAt := some (some next) }
  | .interval =>
      some {
        nextRunAt := some (some (now + seconds task.intervalSeconds)) }
  | .once => some { enabled := some false, nextRunAt := some none }
  | .other => some { nextRunAt := some task.nextRunAt }

/-- Whether an interval task has reached its limit. -/
def reachedLimit (task : Task) (db : Db) : Bool :=
  task.scheduleType = .interval &&
    task.repeat_.any fun limit => limit ≤ (db.allJobs task.id).length

/-- `TaskExecutor._enqueue_for_scheduled_task`. -/
def executorEnqueue (cfg : Config) (task : Task) : Sql Unit := do
  if ← read (reachedLimit task) then
    updateOne cfg task.id { enabled := some false, nextRunAt := some none }
  else if ← read (isPending task.id) then pure ()
  else do
    let _ ← insertJob cfg
      { taskPath := task.taskPath
        kwargs := task.kwargs
        queueName := task.queueName
        priority := task.priority
        scheduledTaskId := some task.id }
    match ← read fun db => db.tasks.get task.id with
    | none => raise .missing
    | some fresh => do
        let now ← currentTime
        match executorColumns cfg fresh now with
        | some columns => updateOne cfg task.id columns
        | none => raise .invalidExpression

/-- `TaskExecutor.run_due_tasks`. -/
def executorRunDueTasks (cfg : Config) : Sql Unit := do
  let now ← currentTime
  let dueTaskIds ← read fun db =>
    (db.tasks.rows.filter (isDue now)).map Task.id
  each (fun task =>
    session do
      match ← claimTask cfg now task with
      | none => pure ()
      | some task => executorEnqueue cfg task
      commit) dueTaskIds

/-! ## The system -/

inductive Call where
  | runDueTasks (queueNames : Option (List String))
  /-- A scheduler that goes on with a copy of a task it has. -/
  | enqueueForScheduledTask (task : Task)
  | runClaimedTasks
  | executorRunDueTasks
  /-- An operator edits a task. -/
  | updateScheduledTask (task : Nat) (columns : Columns)

def scriptOf (cfg : Config) : Call → Sql Unit
  | .runDueTasks queueNames => runDueTasks cfg queueNames
  | .enqueueForScheduledTask task =>
      quietly (idleTransaction cfg (enqueueForScheduledTask cfg task))
  | .runClaimedTasks => runClaimedTasks cfg
  | .executorRunDueTasks => executorRunDueTasks cfg
  | .updateScheduledTask task columns =>
      autocommit cfg (updateScheduledTask cfg task columns)

abbrev Return := Except Exc Unit

/-- What happens by itself. -/
def isAmbient : Write → Bool
  | .tick _ => true
  | .progress _ _ => true
  | .finish _ _ => true
  | .retry _ => true
  | .expire _ => true
  | _ => false

def system (cfg : Config) : System Db Write Lock Call Return where
  schema := schema cfg.dialect
  body call := (scriptOf cfg call).run
  ambient := isAmbient

end Sqlery.Scheduling
