import Mathlib.Data.List.Sort
import Sqlery.Core.Decisions
import Sqlery.ReadCommitted.Machine
import Sqlery.ReadCommitted.Table

/-!
# The database of the standalone backend

The tables, the writes the code makes to them and the locks those writes need.
On PostgreSQL a write locks the row it touches.  SQLite has one writer: every
write needs the same lock, which the transaction keeps until it ends.

Job ids come from UUID v7 and attempt ids from a sequence; both are drawn from
a counter here, whose advance survives a rollback.  That nobody else has a job
id just drawn is the lock `fresh`, which nothing ever waits for.  The ready
table's generation belongs to the rotator, which moves it on its own.
-/

namespace Sqlery.Standalone

open ReadCommitted

inductive Dialect where
  | postgresql
  | sqlite
  deriving DecidableEq, Repr

structure Db where
  live : Table Job.id := .empty
  history : Table (fun row : Job => (row.finishedAt, row.id)) := .empty
  attempts : Table Attempt.id := .empty
  ready : Table (fun entry : Ready => (entry.slot, entry.jobId)) := .empty
  blocked : Table (fun row : Blocked => (row.jobId, row.dependencyId)) :=
    .empty
  staged : Table Staged.id := .empty
  tasks : Table ScheduledTask.id := .empty
  workers : Table Worker.id := .empty
  clock : Time := 0
  nextJob : JobId := 1
  nextAttempt : AttemptId := 1
  generation : Nat := 0
  /-- The jobs that were replaced by one of the same name, for the record. -/
  replaced : List JobId := []
  /-- The rows that were written to the live table, for the record. -/
  versions : List Job := []
  deriving DecidableEq

/-- What a call has read or decided, for the record. -/
inductive Remark where
  /-- The sweep found this attempt past its job's threshold. -/
  | judged (job : JobId) (attempt : AttemptId)
  /-- A sweep took the job up for a retry. -/
  | takenUp (job : JobId)
  /-- The look-up before a retry found no retry of the job. -/
  | noRetry (job : JobId)
  /-- An asynchronous recheck selected the row of the blocked job. -/
  | rechecks (job : JobId)
  deriving DecidableEq, Repr

/-- `deleteLive` is the second half of a move into history; `discardLive` is
the deletion of a named job that a new job replaces.  `foundReady` and
`foundBlocked` are inserts that did nothing, because the row was there. -/
inductive Write where
  | insertLive (job : Job)
  | setLive (job : Job)
  | deleteLive (job : JobId)
  | discardLive (job : JobId)
  | insertHistory (row : Job)
  | insertAttempt (attempt : Attempt)
  | closeAttempt (attempt : AttemptId) (job : JobId) (now : Time)
      (outcome : Outcome)
  | insertReady (entry : Ready)
  | setReady (entry : Ready)
  | deleteReady (slot : Nat) (job : JobId)
  | foundReady (slot : Nat) (job : JobId)
  | insertBlocked (row : Blocked)
  | deleteBlocked (job dependency : JobId)
  | foundBlocked (job dependency : JobId)
  | insertStaged (row : Staged)
  | deleteStaged (job : JobId)
  | setTask (task : ScheduledTask)
  | setWorker (worker : Worker)
  | tick (elapsed : Nat)
  | nextJob
  | nextAttempt
  | nextGeneration
  | remark (remark : Remark)
  deriving DecidableEq, Repr

inductive Lock where
  | live (job : JobId)
  | history (finishedAt : Option Time) (job : JobId)
  | attempt (attempt : AttemptId)
  | ready (slot : Nat) (job : JobId)
  | blocked (job dependency : JobId)
  | staged (job : JobId)
  | task (task : Nat)
  | worker (worker : WorkerId)
  | tag (tag : String)
  | writer
  | fresh (job : JobId)
  deriving DecidableEq, Repr

def closeRow (attempts : Table Attempt.id) (id : AttemptId) (now : Time)
    (outcome : Outcome) : Table Attempt.id :=
  match attempts.get id with
  | some attempt => attempts.set (attempt.close now outcome)
  | none => attempts

def Write.apply : Write → Db → Db
  | .insertLive job, db =>
      { db with live := db.live.insert job, versions := job :: db.versions }
  | .setLive job, db =>
      { db with live := db.live.set job, versions := job :: db.versions }
  | .deleteLive job, db => { db with live := db.live.erase job }
  | .discardLive job, db =>
      { db with live := db.live.erase job, replaced := job :: db.replaced }
  | .insertHistory row, db => { db with history := db.history.insert row }
  | .insertAttempt attempt, db =>
      { db with attempts := db.attempts.insert attempt }
  | .closeAttempt id _ now outcome, db =>
      { db with attempts := closeRow db.attempts id now outcome }
  | .insertReady entry, db => { db with ready := db.ready.insert entry }
  | .setReady entry, db => { db with ready := db.ready.set entry }
  | .deleteReady slot job, db =>
      { db with ready := db.ready.erase (slot, job) }
  | .insertBlocked row, db => { db with blocked := db.blocked.insert row }
  | .deleteBlocked job dependency, db =>
      { db with blocked := db.blocked.erase (job, dependency) }
  | .insertStaged row, db => { db with staged := db.staged.insert row }
  | .deleteStaged job, db => { db with staged := db.staged.erase job }
  | .setTask task, db => { db with tasks := db.tasks.set task }
  | .setWorker worker, db => { db with workers := db.workers.set worker }
  | .tick elapsed, db => { db with clock := db.clock + elapsed }
  | .nextJob, db => { db with nextJob := db.nextJob + 1 }
  | .nextAttempt, db => { db with nextAttempt := db.nextAttempt + 1 }
  | .nextGeneration, db => { db with generation := db.generation + 1 }
  | .foundReady _ _, db => db
  | .foundBlocked _ _, db => db
  | .remark _, db => db

/-- The lock of the row a write touches. -/
def Write.rowLock : Write → Option Lock
  | .insertLive job => some (.live job.id)
  | .setLive job => some (.live job.id)
  | .deleteLive job => some (.live job)
  | .discardLive job => some (.live job)
  | .insertHistory row => some (.history row.finishedAt row.id)
  | .insertAttempt attempt => some (.attempt attempt.id)
  | .closeAttempt id _ _ _ => some (.attempt id)
  | .insertReady entry => some (.ready entry.slot entry.jobId)
  | .setReady entry => some (.ready entry.slot entry.jobId)
  | .deleteReady slot job => some (.ready slot job)
  | .insertBlocked row => some (.blocked row.jobId row.dependencyId)
  | .deleteBlocked job dependency => some (.blocked job dependency)
  | .insertStaged row => some (.staged row.id)
  | .deleteStaged job => some (.staged job)
  | .setTask task => some (.task task.id)
  | .setWorker worker => some (.worker worker.id)
  | _ => none

def lockOf (dialect : Dialect) (row : Lock) : Lock :=
  match dialect with
  | .postgresql => row
  | .sqlite => .writer

def Write.freshLock : Write → Option Lock
  | .insertLive job => some (.fresh job.id)
  | _ => none

def schema (dialect : Dialect) : Schema Db Write Lock where
  apply := Write.apply
  guards write := (write.rowLock.map (lockOf dialect)).toList ++
    write.freshLock.toList
  conflicts left right := left = right
  conflicts_symm left right := by simp [eq_comm]

/-- The settings the modelled functions read, and the parts of the outside
world they call: the worker registry's id scheme, the token generator and the
retry policy a task declares.  `fuel` bounds the loops; a loop that exceeds it
is a process that never ends its call. -/
structure Config where
  dialect : Dialect
  /-- `sqlery_queued_job` is a partitioned table (PostgreSQL only). -/
  partitioned : Bool := false
  rotation : Bool := false
  scheduledJobThresholdDays : Int := 1
  settleGrace : Time := seconds 60
  tagConcurrencyLimits : List (String × Nat) := []
  /-- A rate limit that does not parse is `none`. -/
  tagRateLimits : List (String × Option (Nat × Time)) := []
  workerPk : String → WorkerId := fun _ => 0
  parseUuid : String → Option WorkerId := fun _ => none
  newToken : AttemptId → String := fun _ => ""
  pid : Nat := 0
  /-- `policy_allows_retry` of a failure without an exception at hand. -/
  policyAllowsRetry : JobSpec → Bool := fun _ => true
  /-- The caps and the jitter put on a retry's delay, in seconds. -/
  shapeRetryDelay : JobSpec → Rat → Rat := fun _ delay => delay
  fuel : Nat := 100

def Config.partitionedPg (cfg : Config) : Bool :=
  cfg.dialect = .postgresql && cfg.partitioned

/-- `slot_for_generation`. -/
def slotForGeneration (generation : Nat) : Nat := generation % 3

/-! ## Reading -/

def Db.hasOpenAttempt (db : Db) (job : JobId) : Bool :=
  db.attempts.rows.any fun attempt => attempt.runs job

/-- Queued and idle: the job waits to be claimed. -/
def Db.waiting (db : Db) (job : Job) : Bool :=
  job.status = .queued && !db.hasOpenAttempt job.id

def Db.running (db : Db) (job : Job) : Bool :=
  job.status = .queued && db.hasOpenAttempt job.id

def byId (attempts : List Attempt) : List Attempt :=
  attempts.insertionSort fun left right => left.id ≤ right.id

/-- The newest attempt in a list that satisfies a condition. -/
def newestWhere (db : Db) (keep : Attempt → Bool) : Option Attempt :=
  (byId (db.attempts.rows.filter keep)).getLast?

def Db.openAttemptOf (db : Db) (job : JobId) : Option Attempt :=
  newestWhere db fun attempt => attempt.runs job

/-- A live row as the view `sqlery_job_all` shows it. -/
def Db.shown (db : Db) (job : Job) : Job :=
  if job.status = .queued then overlayRunning job (db.openAttemptOf job.id)
  else job

/-- The rows of the view `sqlery_job_all`. -/
def Db.jobAll (db : Db) : List Job :=
  db.live.rows.map db.shown ++ db.history.rows

def Db.anywhere (db : Db) (job : JobId) : Option Job :=
  db.jobAll.find? fun row => row.id = job

def Db.historyOf (db : Db) (job : JobId) : Option Job :=
  db.history.rows.find? fun row => row.id = job

/-- Newest first, as `ORDER BY created_at DESC, id DESC` lists them. -/
def newerJob (left right : Job) : Bool :=
  right.createdAt < left.createdAt ||
    (left.createdAt = right.createdAt && right.id ≤ left.id)

def Db.latestRetry (db : Db) (job : JobId) : Option Job :=
  ((db.jobAll.filter fun row => row.parentJobId = some job).insertionSort
    fun left right => newerJob left right).head?

end Sqlery.Standalone
