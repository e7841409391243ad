import Mathlib.Data.Rat.Defs
import Mathlib.Order.Defs.LinearOrder

/-!
# Rows of the job tables

The columns of `sqlery_queued_job` (and of `sqlery_job_history`, which has the
same ones), `sqlery_job_attempt`, `sqlery_job_ready`, `sqlery_job_blocked`,
`sqlery_scheduled_job`, `sqlery_scheduled_task` and `sqlery_worker`, as far as
a modelled function reads or writes them.  Times are microseconds since a
fixed origin.  JSON columns whose contents nobody inspects are kept as text.
-/

namespace Sqlery

abbrev Time := Int
abbrev JobId := Int
abbrev AttemptId := Nat
abbrev WorkerId := Nat

def seconds (n : Int) : Time := n * 1000000

inductive Status where
  | queued
  | running
  | success
  | failed
  | archived
  | shuttingDown
  deriving DecidableEq, Repr

inductive Outcome where
  | success
  | failed
  | abandoned
  deriving DecidableEq, Repr

/-- What the caller of `create_job` chooses.  An entry of `dependencies` is
`none` when Python's `int` rejects it. -/
structure JobSpec where
  taskPath : String := ""
  kwargs : String := "{}"
  queueName : String := "default"
  priority : Int := 0
  scheduledAt : Option Time := none
  maxRetries : Int := 0
  retryBackoff : Rat := 1
  allowParallel : Bool := false
  timeoutSeconds : Option Int := none
  retryCount : Int := 0
  scheduledTaskId : Option Nat := none
  jobName : Option String := none
  retryIntervals : Option (List Rat) := none
  metadata : Option String := none
  dependencies : List (Option JobId) := []
  onSuccessPath : String := ""
  onFailurePath : String := ""
  ttl : Option Int := none
  resultTtl : Option Int := none
  failureTtl : Option Int := none
  parentJobId : Option JobId := none
  tags : List String := []
  deriving DecidableEq, Repr

/-- An element of the `runs` column, written by `_record_run`. -/
structure RunRecord where
  attemptNumber : Int
  startedAt : Option Time
  finishedAt : Option Time
  status : Status
  duration : Option Int
  output : String
  error : String
  deriving DecidableEq, Repr

structure Job extends JobSpec where
  id : JobId
  createdAt : Time
  status : Status := .queued
  version : Nat := 0
  runs : List RunRecord := []
  workerId : Option WorkerId := none
  workerPid : Option Nat := none
  childPid : Option Nat := none
  startedAt : Option Time := none
  finishedAt : Option Time := none
  durationSeconds : Option Int := none
  output : String := ""
  error : String := ""
  traceback : String := ""
  terminationReason : String := ""
  deriving DecidableEq, Repr

structure Attempt where
  id : AttemptId
  jobId : JobId
  token : String
  workerId : Option WorkerId := none
  workerPid : Option Nat := none
  childPid : Option Nat := none
  claimedAt : Time
  finishedAt : Option Time := none
  outcome : Option Outcome := none
  deriving DecidableEq, Repr

namespace Attempt

def isOpen (attempt : Attempt) : Bool := attempt.finishedAt.isNone

/-- An attempt that is open for the given job. -/
def runs (attempt : Attempt) (job : JobId) : Bool :=
  attempt.jobId = job && attempt.isOpen

def close (attempt : Attempt) (now : Time) (outcome : Outcome) : Attempt :=
  { attempt with finishedAt := some now, outcome := some outcome }

@[simp] theorem isOpen_close (attempt : Attempt) (now : Time)
    (outcome : Outcome) : (attempt.close now outcome).isOpen = false := rfl

@[simp] theorem id_close (attempt : Attempt) (now : Time)
    (outcome : Outcome) : (attempt.close now outcome).id = attempt.id := rfl

@[simp] theorem jobId_close (attempt : Attempt) (now : Time)
    (outcome : Outcome) :
    (attempt.close now outcome).jobId = attempt.jobId := rfl

end Attempt

/-- What a completion presents: the identity of the attempt of its claim. -/
structure AttemptHandle where
  id : AttemptId
  token : String
  jobId : JobId
  claimedAt : Option Time := none
  workerId : Option WorkerId := none
  workerPid : Option Nat := none
  deriving DecidableEq, Repr

structure Ready where
  slot : Nat
  jobId : JobId
  queueName : String
  priority : Int
  createdAt : Time
  scheduledAt : Option Time
  deriving DecidableEq, Repr

structure Blocked where
  jobId : JobId
  dependencyId : JobId
  createdAt : Time
  blockedAt : Time
  deriving DecidableEq, Repr

/-- A row of the staging table; the payload is kept as the specification it
encodes. -/
structure Staged where
  id : JobId
  createdAt : Time
  spec : JobSpec
  deriving DecidableEq, Repr

structure ScheduledTask where
  id : Nat
  enabled : Bool
  nextRunAt : Option Time
  deriving DecidableEq, Repr

structure Worker where
  id : WorkerId
  status : String
  currentJobId : Option JobId
  jobsProcessed : Nat
  lastHeartbeat : Time
  deriving DecidableEq, Repr

end Sqlery
