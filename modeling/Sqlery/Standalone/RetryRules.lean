import Mathlib.Algebra.Order.Ring.Rat
import Sqlery.Standalone.AsyncWorker

/-!
# The retry rules of the two workers

Whether a failed job is retried, with which columns and after which delay: the
synchronous worker (`_should_retry`, `_retry_job`) and the asynchronous one
(`_execute_job`, `_on_job_failed`, `retry_job_fields`).  A policy is what a task
function declares; importing a task and `isinstance` are parameters.
-/

namespace Sqlery.Standalone.RetryRules

/-- What a task raised: `Retry`, with its countdown, or something else. -/
inductive Raised (Exc : Type) where
  | retry (countdown : Option Rat)
  | other (exc : Exc)
  deriving DecidableEq, Repr

structure RetryPolicy (Cls : Type) where
  autoretryFor : Option (List Cls) := none
  backoffMax : Option Rat := none
  jitter : Option Bool := none
  deriving DecidableEq, Repr

/-- The settings, and the code outside: `uniform delay` is
`random.uniform(0, delay)`. -/
structure World (Exc Cls : Type) where
  isInstance : Exc → Cls → Bool
  loadTask : String → Option (RetryPolicy Cls)
  retryBackoffMax : Option Rat := none
  retryJitter : Bool := false
  uniform : Rat → Rat := id

/-- A failed job.  `loaded` says that its task and its arguments could be
loaded, `existing` that a retry of it is already there. -/
structure Failed (Exc : Type) where
  job : Job
  exc : Raised Exc
  loaded : Bool := true
  existing : Bool := false

variable {Exc Cls : Type}

/-! ## `core.retry` -/

def policyAllowsRetry (world : World Exc Cls) (job : Job) (exc : Raised Exc) :
    Bool :=
  match exc with
  | .retry _ => true
  | .other exc =>
      match world.loadTask job.taskPath with
      | none => true
      | some policy =>
          match policy.autoretryFor with
          | none => true
          | some classes => classes.any (world.isInstance exc)

def retryCountdown : Raised Exc → Option Rat
  | .retry countdown => countdown
  | .other _ => none

/-- `min(delay, float(cap))`, if there is a cap other than zero. -/
def capped (cap : Option Rat) (delay : Rat) : Rat :=
  match cap with
  | none => delay
  | some cap => if cap = 0 then delay else min delay cap

def shapeRetryDelay (world : World Exc Cls) (delay : Rat) (job : Job)
    (countdown : Option Rat) : Rat :=
  match countdown with
  | some countdown => countdown
  | none =>
      let policy := (world.loadTask job.taskPath).getD {}
      let delay := capped policy.backoffMax delay
      if policy.jitter = some true && !world.retryJitter then
        world.uniform delay
      else delay

/-- A list subscript; `none` is `IndexError`. -/
def subscript (values : List Rat) (index : Int) : Option Rat :=
  if 0 ≤ index then values[index.toNat]?
  else if -(values.length : Int) ≤ index then
    values[(index + values.length).toNat]?
  else none

/-- The interval that `retry_intervals` gives, if it is not empty. -/
def intervalDelay (intervals : Option (List Rat)) (retryCount : Int) :
    Option (Option Rat) :=
  match intervals with
  | some (first :: rest) =>
      some (subscript (first :: rest) (min retryCount rest.length))
  | _ => none

/-- `retry_backoff or 1.0`. -/
def backoffOf (job : Job) : Rat :=
  if job.retryBackoff = 0 then 1 else job.retryBackoff

def retryJobFields (failed : Job) : Option (JobSpec × Rat) :=
  let delay := match intervalDelay failed.retryIntervals failed.retryCount with
    | some interval => interval
    | none => some (backoffOf failed * 2 ^ failed.retryCount)
  delay.map fun delay =>
    ({ taskPath := failed.taskPath
       kwargs := failed.kwargs
       queueName := failed.queueName
       priority := failed.priority
       parentJobId := some failed.id
       retryCount := failed.retryCount + 1
       maxRetries := failed.maxRetries
       retryBackoff := backoffOf failed
       allowParallel := failed.allowParallel
       timeoutSeconds := failed.timeoutSeconds
       jobName := failed.jobName.bind fun name =>
         if name = "" then none
         else some (retryJobName name (failed.retryCount + 1))
       retryIntervals := failed.retryIntervals
       dependencies := failed.dependencies
       tags := failed.tags
       metadata := failed.metadata
       onSuccessPath := failed.onSuccessPath
       onFailurePath := failed.onFailurePath
       resultTtl := failed.resultTtl
       failureTtl := failed.failureTtl },
     delay)

/-! ## The synchronous worker -/

/-- `compute_retry_delay`, in seconds.  Delays that a float or a `timedelta`
cannot hold, for which both workers raise `OverflowError`, are left out. -/
def computeRetryDelay (world : World Exc Cls) (backoff : Rat)
    (retryCount : Int) (intervals : Option (List Rat)) : Option Rat :=
  match intervalDelay intervals retryCount with
  | some interval => interval
  | none =>
      let delay := capped world.retryBackoffMax (backoff * 2 ^ retryCount)
      some (if world.retryJitter then world.uniform delay else delay)

def shouldRetry (world : World Exc Cls) (failed : Failed Exc) : Bool :=
  if failed.job.maxRetries ≤ 0 then false
  else if failed.job.maxRetries ≤ failed.job.retryCount then false
  else policyAllowsRetry world failed.job failed.exc

/-- What `_retry_job` passes to `create_job`. -/
def retryKwargs (failed : Job) : JobSpec where
  taskPath := failed.taskPath
  kwargs := failed.kwargs
  queueName := failed.queueName
  priority := failed.priority
  jobName := failed.jobName.bind fun name =>
    if name = "" then none
    else some (retryJobName name (failed.retryCount + 1))
  maxRetries := failed.maxRetries
  retryBackoff := failed.retryBackoff
  allowParallel := failed.allowParallel
  timeoutSeconds := failed.timeoutSeconds
  retryCount := failed.retryCount + 1
  parentJobId := some failed.id
  retryIntervals := failed.retryIntervals
  dependencies := failed.dependencies
  tags := failed.tags
  metadata := failed.metadata
  onSuccessPath := failed.onSuccessPath
  onFailurePath := failed.onFailurePath
  resultTtl := failed.resultTtl
  failureTtl := failed.failureTtl

/-- The retry that the synchronous worker creates, with its delay. -/
def retryJob (world : World Exc Cls) (failed : Failed Exc) :
    Option (JobSpec × Rat) :=
  if shouldRetry world failed && !failed.existing then
    (computeRetryDelay world (backoffOf failed.job) failed.job.retryCount
        failed.job.retryIntervals).map fun delay =>
      (retryKwargs failed.job,
        shapeRetryDelay world delay failed.job (retryCountdown failed.exc))
  else none

/-! ## The asynchronous worker -/

def shouldRetryAsync (job : Job) : Bool :=
  0 < job.maxRetries && job.retryCount < job.maxRetries

/-- The retry that `_execute_job` leaves: a job that could not be loaded is
failed and that is all. -/
def requeueForRetry (failed : Failed Exc) : Option (JobSpec × Rat) :=
  if failed.loaded && shouldRetryAsync failed.job then
    retryJobFields failed.job
  else none

end Sqlery.Standalone.RetryRules
