import Sqlery.Standalone.Transitions

/-!
# Creating jobs

`create_job` with the session hook that gives a new row its ready entry, and
`advance_scheduled_task_if_due`.
-/

namespace Sqlery.Standalone

open ReadCommitted
open Script

/-- `_generate_job_id_from_uuid7`. -/
def generateJobId : Sql JobId :=
  exec fun _ current _ =>
    some {
      result := current.nextJob
      locks := [.fresh current.nextJob]
      atOnce := [.nextJob] }

def insertLive (cfg : Config) (job : Job) : Sql Unit :=
  exec fun _ _ _ =>
    some {
      result := ()
      writes := [.insertLive job]
      locks := writerLock cfg.dialect }

/-- `_ensure_entry` for a row that is being inserted. -/
def ensureEntry (cfg : Config) (job : Job) : Sql Unit := do
  writeReady cfg [job] true
  updateReadyStmt cfg job

/-- The flush of a new row: the hook `_sync_ready_with_jobs` writes its entry
first. -/
def flushNew (cfg : Config) (spec : JobSpec) (createdAt : Time) :
    Sql Job := do
  let id ← generateJobId
  let job : Job := { toJobSpec := spec, id, createdAt }
  ensureEntry cfg job
  insertLive cfg job
  pure job

/-- `session.refresh(job)`. -/
def refresh (job : Job) : Sql Job := do
  match ← read fun db => (db.live.get job.id).filter (sameRow job) with
  | some row => pure row
  | none => raise (.runtime "could not refresh instance")

/-! ## Named jobs -/

/-- The `DELETE` of a flushed `session.delete(job)`. -/
def deleteJob (cfg : Config) (job : Job) : Sql Unit := do
  let _ ← exec (dml Db.live cfg (fun _ => sameRow job)
    fun row => .discardLive row.id)
  pure ()

/-- A new job replaces the live jobs of the same name; the hook drops their
entries first. -/
def replaceNamed (cfg : Config) (name : String) : Sql (List JobId) :=
  session do
    let conflicting ← read fun db =>
      db.live.rows.filter fun job => job.jobName = some name
    let ids := conflicting.map (·.id)
    whenever (ids ≠ []) (dropEntries cfg ids)
    each (deleteJob cfg) conflicting
    commit
    pure ids

/-! ## `create_job` -/

inductive Created where
  | job (job : Job)
  | staged (row : Staged)
  deriving DecidableEq, Repr

def insertStaged (cfg : Config) (row : Staged) : Sql Unit :=
  exec fun _ _ _ =>
    some {
      result := ()
      writes := [.insertStaged row]
      locks := writerLock cfg.dialect }

/-- A job far in the future waits in the staging table. -/
def isFarFuture (cfg : Config) (spec : JobSpec) (now : Time) : Bool :=
  cfg.partitionedPg && spec.scheduledAt.any fun due =>
    now + seconds (cfg.scheduledJobThresholdDays * 86400) < due

def stageJob (cfg : Config) (spec : JobSpec) (createdAt : Time) :
    Sql Created :=
  session do
    let id ← generateJobId
    let row : Staged := { id, createdAt, spec }
    insertStaged cfg row
    commit
    match ← read fun db => db.staged.get id with
    | some stored => pure (.staged stored)
    | none => raise (.runtime "could not refresh instance")

def insertJob (cfg : Config) (spec : JobSpec) (createdAt : Time) :
    Sql Created :=
  session do
    let job ← flushNew cfg spec createdAt
    commit
    let stored ← refresh job
    pure (.job stored)

def replaceConflicting (cfg : Config) (spec : JobSpec) : Sql Unit :=
  match spec.jobName with
  | none => pure ()
  | some name =>
      if name = "" then pure ()
      else do
        let replaced ← replaceNamed cfg name
        each (fun job => releaseDependentsQuietly cfg job) replaced

def createJob (cfg : Config) (spec : JobSpec) : Sql Created := do
  replaceConflicting cfg spec
  let now ← currentTime
  let createdAt ← currentTime
  if isFarFuture cfg spec now then stageJob cfg spec createdAt
  else insertJob cfg spec createdAt

/-! ## Scheduled tasks -/

/-- The compare-and-set on the observed due time. -/
def isDue (taskId : Nat) (observed : Time) (task : ScheduledTask) : Bool :=
  task.id = taskId && task.nextRunAt = some observed && task.enabled

def setNextRun (cfg : Config) (admits : ScheduledTask → Bool)
    (next : Time) : Sql Nat := do
  let rows ← exec (dml Db.tasks cfg (fun _ => admits)
    fun task => .setTask { task with nextRunAt := some next })
  pure rows.length

/-- The task is won: PostgreSQL locks the row and compares, SQLite compares in
the `UPDATE`. -/
def winTask (cfg : Config) (taskId : Nat) (observed : Time)
    (next : Time) : Sql Bool :=
  match cfg.dialect with
  | .postgresql => do
      let locked ← exec (selectForUpdate Db.tasks (fun task => .task task.id)
        fun _ task => task.id = taskId)
      match locked.head? with
      | none => pure false
      | some task => pure (isDue taskId observed task)
  | .sqlite => do
      let updated ← setNextRun cfg (isDue taskId observed) next
      pure (updated = 1)

/-- On PostgreSQL the task row is written with the flush of the new job. -/
def flushTask (cfg : Config) (taskId : Nat) (next : Time) : Sql Unit :=
  match cfg.dialect with
  | .postgresql => do
      let _ ← setNextRun cfg (fun task => task.id = taskId) next
      pure ()
  | .sqlite => pure ()

/-- `advance_scheduled_task_if_due`; `spec` is what `_build_queued_job` makes
of `job_kwargs`. -/
def advanceScheduledTaskIfDue (cfg : Config) (taskId : Nat)
    (observed next : Time) (spec : JobSpec) : Sql (Option Job) :=
  session do
    if ← winTask cfg taskId observed next then do
      let createdAt ← currentTime
      let id ← generateJobId
      let job : Job := { toJobSpec := spec, id, createdAt }
      ensureEntry cfg job
      flushTask cfg taskId next
      insertLive cfg job
      commit
      let stored ← refresh job
      pure (some stored)
    else pure none

end Sqlery.Standalone
