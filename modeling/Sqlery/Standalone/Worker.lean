import Sqlery.Core.Digits
import Sqlery.Standalone.Completion
import Sqlery.Standalone.Enqueue

/-!
# Retries and the stale sweep

The parts of `core.worker.JobExecutor` that write to the queue: failing a job
and creating its retry, recovering a retry that was never created, and
`cleanup_stale_jobs`.
-/

namespace Sqlery.Standalone

open ReadCommitted
open Script

/-! ## The retry's specification -/

/-- `_should_retry` without an exception. -/
def shouldRetry (cfg : Config) (job : Job) : Bool :=
  if job.maxRetries ≤ 0 then false
  else if job.maxRetries ≤ job.retryCount then false
  else cfg.policyAllowsRetry job.toJobSpec

/-- `compute_retry_delay`, in seconds.  Delays that a float or a `timedelta`
cannot hold, for which the code raises `OverflowError`, are left out. -/
def computeRetryDelay (backoff : Rat) (retryCount : Nat)
    (intervals : Option (List Rat)) : Rat :=
  match intervals with
  | some (first :: rest) =>
      (first :: rest).getD (min retryCount rest.length) 0
  | _ => backoff * 2 ^ retryCount

/-- `timedelta(seconds=..)` rounds to microseconds, half to even. -/
def toMicroseconds (delay : Rat) : Time :=
  let exact := delay * 1000000
  let low := exact.floor
  let rest := exact - low
  if rest < 1 / 2 || (rest = 1 / 2 && low % 2 = 0) then low else low + 1

def retrySegment : List Char := ":retry:".toList

/-- `re.sub(r':retry:\d+', '', name)`, over the characters that are left. -/
def stripRetrySegments : Nat → List Char → List Char
  | 0, chars => chars
  | _ + 1, [] => []
  | fuel + 1, char :: rest =>
      let after := (char :: rest).drop retrySegment.length
      if retrySegment.isPrefixOf (char :: rest) &&
          after.head?.any isDecimal then
        stripRetrySegments fuel (after.dropWhile isDecimal)
      else char :: stripRetrySegments fuel rest

def retryJobName (name : String) (attempt : Int) : String :=
  let base := String.ofList
    (stripRetrySegments name.length name.toList)
  s!"{base}:retry:{attempt}"

/-- What `_retry_job` passes to `create_job`. -/
def retrySpec (cfg : Config) (failed : Job) (now : Time) : JobSpec where
  taskPath := failed.taskPath
  kwargs := failed.kwargs
  queueName := failed.queueName
  priority := failed.priority
  scheduledAt := some (now + toMicroseconds (cfg.shapeRetryDelay
    failed.toJobSpec (computeRetryDelay
      (if failed.retryBackoff = 0 then 1 else failed.retryBackoff)
      failed.retryCount.toNat failed.retryIntervals)))
  jobName := failed.jobName.bind fun name =>
    if name = "" then none
    else some (retryJobName name (failed.retryCount + 1))
  maxRetries := failed.maxRetries
  retryBackoff := failed.retryBackoff
  allowParallel := failed.allowParallel
  timeoutSeconds := failed.timeoutSeconds
  retryCount := failed.retryCount + 1
  parentJobId := some failed.id
  retryIntervals := failed.retryIntervals
  dependencies := failed.dependencies
  tags := failed.tags
  metadata := failed.metadata
  onSuccessPath := failed.onSuccessPath
  onFailurePath := failed.onFailurePath
  resultTtl := failed.resultTtl
  failureTtl := failed.failureTtl

/-! ## `_retry_job` -/

/-- `get_latest_retry`. -/
def getLatestRetry (jobId : JobId) : Sql (Option Job) :=
  session (observe (fun db => db.latestRetry jobId) fun found =>
    if found.isSome then [] else [.remark (.noRetry jobId)])

/-- `_finish_retry_bookkeeping`. -/
def finishRetryBookkeeping (cfg : Config) (failed : Job) : Sql Unit := do
  quietly (markJobArchived cfg failed.id)
  quietly (settleRetryPending cfg failed.id)

/-- `_retry_job`. -/
def retryJob (cfg : Config) (failed : Job) : Sql Created := do
  match ← getLatestRetry failed.id with
  | some existing => do
      finishRetryBookkeeping cfg failed
      pure (.job existing)
  | none => do
      let now ← currentTime
      let created ← createJob cfg (retrySpec cfg failed now)
      finishRetryBookkeeping cfg failed
      pure created

/-- The job object a retry is made of; a row that is gone or staged has not
the attributes it needs. -/
def jobOf : Option Found → Sql Job
  | some (.live job) => pure job
  | some (.finished row) => pure row
  | some (.staged _) =>
      raise (.attribute "'ScheduledJob' object has no attribute")
  | none => raise (.attribute "'NoneType' object has no attribute")

/-- The executing worker's failure branch: the failure is recorded under the
worker's fences, then the retry is created. -/
def failExecution (cfg : Config) (job : Job) (attempt : AttemptHandle)
    (error traceback : String) (willRetry : Bool) : Sql Unit :=
  quietly do
    let failed ← markJobFailed cfg job.id error traceback (some job.version)
      (if willRetry then pendingReason "" else "") (some attempt)
    if willRetry then do
      let failed ← jobOf failed
      let _ ← retryJob cfg failed
      pure ()
    else pure ()

/-! ## `recover_lost_retries` -/

/-- `get_jobs_pending_retry`. -/
def jobsPendingRetry (cfg : Config) (cutoff : Time) (limit : Nat) (db : Db) :
    List Job :=
  ((db.live.rows.filter fun job =>
      job.status = .failed &&
        likeRetryPending (cfg.dialect = .sqlite) job.terminationReason &&
        job.finishedAt.any (· ≤ cutoff)).insertionSort fun left right =>
      left.finishedAt.getD 0 ≤ right.finishedAt.getD 0).take limit

/-- Leaves a remark; the database is not touched. -/
def takeUp (job : JobId) : Sql Unit :=
  observe (fun _ => ()) fun _ => [.remark (.takenUp job)]

def recoverOne (cfg : Config) (job : Job) : Sql Unit :=
  quietly do
    if retryBudgetLeft job then do
      takeUp job.id
      let _ ← retryJob cfg job
      pure ()
    else settleRetryPending cfg job.id

def recoverLostRetries (cfg : Config) (grace : Time := seconds 60)
    (limit : Nat := 100) : Sql Unit := do
  let now ← currentTime
  let pending ← session (read (jobsPendingRetry cfg (now - grace) limit))
  each (recoverOne cfg) pending

/-! ## `cleanup_stale_jobs` -/

/-- `get_running_jobs`, each with the attempt it is shown by. -/
def runningJobs (queue : Option String) (db : Db) : List (Job × Attempt) :=
  (byId (db.attempts.rows.filter Attempt.isOpen)).filterMap fun attempt =>
    match db.live.get attempt.jobId with
    | none => none
    | some job =>
        if job.status = .queued && queue.all (fun name =>
            job.queueName = name) &&
          db.openAttemptOf job.id = some attempt then
          some (overlayRunning job (some attempt), attempt)
        else none

/-- The age of a running job that counts as stale, in seconds. -/
def staleThreshold (job : Job) : Int :=
  match job.timeoutSeconds with
  | none => 3600
  | some timeout => if timeout = 0 then 3600 else timeout * 2

def staleError (duration : Time) (threshold : Int) : String :=
  s!"Worker crashed or was killed (running for {duration / 1000000}s, " ++
    s!"threshold {threshold}s)"

def staleTraceback : String :=
  "Job was stuck in 'running' state - likely worker process crashed, " ++
    "killed by OOM, or terminated by signal"

/-- Whether a running job counts as crashed. -/
def overdue (now : Time) (job : Job) : Bool :=
  match job.startedAt with
  | none => true
  | some startedAt => seconds (staleThreshold job) < now - startedAt

/-- The remarks of a sweep on what it found running. -/
def judgements (now : Time) (running : List (Job × Attempt)) : List Write :=
  (running.filter fun pair => overdue now pair.1).map fun pair =>
    .remark (.judged pair.1.id pair.2.id)

/-- One running job of the sweep.  The worker process is killed between the
judgement and the write; neither is in the database. -/
def cleanupOne (cfg : Config) (now : Time) (job : Job) : Sql Unit :=
  match job.startedAt with
  | none => do
      let _ ← markJobFailed cfg job.id
        "Worker crashed before job execution started"
        "Job was stuck in 'running' state with no started_at timestamp"
        none "" none
      pure ()
  | some startedAt =>
      if seconds (staleThreshold job) < now - startedAt then do
        let _ ← markJobFailed cfg job.id
          (staleError (now - startedAt) (staleThreshold job)) staleTraceback
          none (if shouldRetry cfg job then pendingReason "" else "") none
        let found ← getJobById cfg job.id
        let again ← jobOf found
        if shouldRetry cfg again then do
          takeUp again.id
          let _ ← retryJob cfg again
          pure ()
        else pure ()
      else pure ()

def cleanupStaleJobs (cfg : Config) (queue : Option String) : Sql Unit := do
  let now ← currentTime
  let running ← session (observe (runningJobs queue) (judgements now))
  each (fun pair => cleanupOne cfg now pair.1) running

end Sqlery.Standalone
