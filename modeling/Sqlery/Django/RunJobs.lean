import Mathlib.Data.List.Sort
import Sqlery.Core.Job
import Sqlery.ReadCommitted.Rows

/-!
# The executor of the Django backend

`run_queue_workers`, `process_one_job` and `execute_job` of `TaskExecutor` on
PostgreSQL, up to the moment a job's attempt is open: the selection of a job
under a row lock, the check of its queue, and `mark_running`.

How an execution ends is a call of its own, reduced to what it does to the
attempt and to the row.  New jobs and new entries come from elsewhere.
-/

namespace Sqlery.Django.RunJobs

open ReadCommitted
open Script

/-! ## Data -/

structure Db where
  jobs : Table Job.id := .empty
  ready : List Ready := []
  blocked : List Blocked := []
  attempts : List Attempt := []
  nextAttempt : AttemptId := 0
  clock : Time := 0

inductive Write where
  | insertAttempt (attempt : Attempt)
  | deleteReady (slot : Nat) (job : JobId)
  | deleteBlocked (job : JobId)
  /-- The end of an execution: the job's attempts are closed, and the row moves
  into history or stays as a failure that will be retried. -/
  | complete (job : JobId) (inPlace : Bool)
  | nextAttempt
  /-- A job is created. -/
  | create (job : Job)
  /-- A job gets a ready entry. -/
  | enter (entry : Ready)
  | tick (elapsed : Nat)
  /-- A check has found nothing in the way of the job. -/
  | passed (job : JobId)
  deriving DecidableEq

inductive Lock where
  | job (job : JobId)
  | ready (slot : Nat) (job : JobId)
  deriving DecidableEq, Repr

def Db.openFor (db : Db) (job : JobId) : Bool :=
  db.attempts.any fun attempt => attempt.runs job

/-- `QueuedJob.objects.running()`. -/
def Db.running (db : Db) (job : Job) : Bool :=
  job.status = .queued && db.openFor job.id

/-- `QueuedJob.objects.waiting()`. -/
def Db.waiting (db : Db) (job : Job) : Bool :=
  job.status = .queued && !db.openFor job.id

/-- Ids of jobs are not given twice. -/
def Db.knows (db : Db) (job : JobId) : Bool :=
  (db.jobs.get job).isSome ||
    db.attempts.any fun attempt => attempt.jobId = job

def Write.apply : Write → Db → Db
  | .insertAttempt attempt, db =>
      { db with attempts := attempt :: db.attempts }
  | .deleteReady slot job, db =>
      { db with ready := db.ready.filter fun entry =>
          !(entry.slot = slot && entry.jobId = job) }
  | .deleteBlocked job, db =>
      { db with blocked := db.blocked.filter fun row => row.jobId ≠ job }
  | .complete job inPlace, db =>
      { db with
        attempts := db.attempts.map fun attempt =>
          if attempt.runs job then attempt.close db.clock .success else attempt
        jobs := match db.jobs.get job with
          | none => db.jobs
          | some row =>
              if inPlace then db.jobs.set { row with status := .failed }
              else db.jobs.erase job }
  | .nextAttempt, db => { db with nextAttempt := db.nextAttempt + 1 }
  | .create job, db =>
      if db.knows job.id then db
      else { db with jobs := db.jobs.insert { job with status := .queued } }
  | .enter entry, db => { db with ready := entry :: db.ready }
  | .tick elapsed, db => { db with clock := db.clock + elapsed }
  | .passed _, db => db

def Write.guards : Write → List Lock
  | .deleteReady slot job => [.ready slot job]
  | .complete job _ => [.job job]
  | _ => []

def schema : Schema Db Write Lock where
  apply := Write.apply
  guards := Write.guards
  conflicts left right := left = right
  conflicts_symm left right := by simp [eq_comm]

inductive Exc where
  | concurrentModification (message : String)
  | attributeError (message : String)
  | doesNotExist
  deriving DecidableEq, Repr

abbrev Sql := Script Db Write Lock Exc

def currentTime : Sql Time := read Db.clock

/-! ## Selecting a job -/

def slots : List Nat := [0, 1, 2]

def inQueue (queueName : Option String) (queue : String) : Bool :=
  queueName.all fun name => name = "" || name = queue

/-- `in_ready`. -/
def inReady (queueName : Option String) (now : Time) (db : Db)
    (job : JobId) : Bool :=
  db.ready.any fun entry => entry.slot ∈ slots && entry.jobId = job &&
    entry.scheduledAt.all (· ≤ now) && inQueue queueName entry.queueName

/-- What the statement asks of the version of the row it locks. -/
def wanted (queueName : Option String) (job : Job) : Bool :=
  job.status = .queued && inQueue queueName job.queueName

/-- The jobs of `get_queued_jobs`, in the order the table has them. -/
def queuedJobs (queueName : Option String) (now : Time) (db : Db) : List Job :=
  db.jobs.rows.filter fun job => wanted queueName job && db.waiting job &&
    inReady queueName now db job.id

/-- `-priority, created_at`. -/
def before (left right : Job) : Bool :=
  right.priority < left.priority ||
    (left.priority = right.priority && left.createdAt ≤ right.createdAt)

/-- The first row that nobody has locked and that is still wanted. -/
def firstFree (queueName : Option String) (current : Db)
    (others : Others Lock) : List Job → Option Job
  | [] => none
  | job :: rest =>
      if others.busy (.job job.id) then firstFree queueName current others rest
      else
        match (current.jobs.get job.id).filter (wanted queueName) with
        | some row => some row
        | none => firstFree queueName current others rest

/-- `SELECT .. FOR UPDATE SKIP LOCKED LIMIT 1`. -/
def selectOne (queueName : Option String) (now : Time)
    (order : List Job → List Job) : Sql (Option Job) :=
  exec fun snapshot current others =>
    let found := firstFree queueName current others
      (order (queuedJobs queueName now snapshot))
    some { result := found
           locks := found.toList.map fun job => .job job.id }

/-- `queued_jobs.exists()`: without an order, and under the same lock. -/
def anyQueued (queueName : Option String) : Sql Bool := do
  let now ← currentTime
  let found ← selectOne queueName now id
  pure found.isSome

/-- `queued_jobs.first()`. -/
def firstQueued (queueName : Option String) : Sql (Option Job) := do
  let now ← currentTime
  selectOne queueName now fun jobs =>
    jobs.insertionSort fun left right => before left right

/-! ## The check and `mark_running` -/

/-- `can_execute_job`.  A check that passes is remarked. -/
def canExecuteJob (job : Job) : Sql Bool :=
  if job.allowParallel then pure true
  else do
    let hasRunningInQueue ← observe
      (fun db => db.jobs.rows.any fun row =>
        db.running row && row.queueName = job.queueName && row.id ≠ job.id)
      fun running => if running then [] else [.passed job.id]
    pure !hasRunningInQueue

/-- `ready.remove([job], wait=False)`. -/
def removeEntries (job : JobId) : Sql Unit := do
  let held ← exec fun snapshot current others =>
    let entries := snapshot.ready.filter fun entry =>
      entry.slot ∈ slots && entry.jobId = job && entry ∈ current.ready &&
        !others.busy (.ready entry.slot entry.jobId)
    some { result := entries
           locks := entries.map fun entry => .ready entry.slot entry.jobId }
  each (fun entry : Ready => exec fun _ _ _ =>
    some { result := (), writes := [.deleteReady entry.slot entry.jobId] }) held
  exec fun _ _ _ => some { result := (), writes := [.deleteBlocked job] }

/-- `JobAttempt.open_new`. -/
def openNew (job : JobId) : Sql Unit := do
  let now ← currentTime
  exec fun _ current _ =>
    some { result := ()
           writes := [.insertAttempt { id := current.nextAttempt, jobId := job
                                       token := "", claimedAt := now }]
           atOnce := [.nextAttempt] }

def stillQueued (job row : Job) : Bool :=
  row.id = job.id && row.createdAt = job.createdAt &&
    row.version = job.version && row.status = .queued

/-- The row of `mark_running`, locked unless another transaction has it. -/
def lockJob (job : Job) : Sql (List Job) :=
  exec (lockFreeRows Db.jobs (fun row => .job row.id) (stillQueued job))

/-- `mark_running`, up to the reload of the object. -/
def markRunning (job : Job) : Sql Unit := do
  let rows ← lockJob job
  let isOpen ← read fun db => db.openFor job.id
  if rows = [] || isOpen then
    raise (.concurrentModification (s!"Job {job.id} was modified by another " ++
      "process (version conflict)"))
  else do
    removeEntries job.id
    openNew job.id

/-! ## The three callers -/

/-- One pass of the loop of `run_queue_workers`, up to the execution. -/
def runQueueWorkers (queueName : Option String) : Sql (Option Job) :=
  session do
    let job ← do
      if ← anyQueued queueName then firstQueued queueName else pure none
    match job with
    | none => do
        commit
        pure none
    | some job =>
        if ← canExecuteJob job then do
          markRunning job
          commit
          pure (some job)
        else do
          commit
          pure none

/-- `process_one_job`, up to the execution. -/
def processOneJob (queueName : Option String) : Sql (Option Job) :=
  session do
    if ← anyQueued queueName then
      match ← firstQueued queueName with
      | none => raise (.attributeError
          "'NoneType' object has no attribute 'allow_parallel'")
      | some job =>
          if ← canExecuteJob job then do
            markRunning job
            commit
            pure (some job)
          else do
            commit
            pure none
    else do
      commit
      pure none

/-- `execute_job`, up to the execution: the check and `mark_running` are
transactions of their own.  A job that has left the table has no row to
mark. -/
def executeJob (jobId : JobId) : Sql (Option Job) :=
  session do
    match ← read fun db => db.jobs.get jobId with
    | none => raise .doesNotExist
    | some job =>
        if ← read fun db => db.openFor job.id then pure (some job)
        else if ← canExecuteJob job then do
          markRunning job
          commit
          pure (some job)
        else pure none

/-- The end of an execution, reduced to the job's attempt and row. -/
def complete (job : JobId) (inPlace : Bool) : Sql (Option Job) :=
  session do
    exec fun _ current _ =>
      if current.openFor job then
        some { result := (), writes := [.complete job inPlace] }
      else some { result := () }
    commit
    pure none

inductive Call where
  | runQueueWorkers (queueName : Option String)
  | processOneJob (queueName : Option String)
  | executeJob (jobId : JobId)
  | complete (job : JobId) (inPlace : Bool)
  deriving DecidableEq

def scriptOf : Call → Sql (Option Job)
  | .runQueueWorkers queueName => runQueueWorkers queueName
  | .processOneJob queueName => processOneJob queueName
  | .executeJob jobId => executeJob jobId
  | .complete job inPlace => complete job inPlace

abbrev Return := Except Exc (Option Job)

def isAmbient : Write → Bool
  | .create _ => true
  | .enter _ => true
  | .tick _ => true
  | _ => false

def system : System Db Write Lock Call Return where
  schema := schema
  body call := (scriptOf call).run
  ambient := isAmbient

end Sqlery.Django.RunJobs
