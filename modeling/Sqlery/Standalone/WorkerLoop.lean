import Sqlery.ReadCommitted.Answers
import Sqlery.ReadCommitted.Extension
import Sqlery.Standalone.Verified

/-!
# The worker loop

One round of `WorkerProcess.run` claims a job, asks whether the job may run
beside what its queue is running, and releases it if not.  The round returns
the job the worker goes on to execute; the execution's writes are calls of
their own.
-/

namespace Sqlery.Standalone

open ReadCommitted
open Script

/-- `has_running_jobs_in_queue`. -/
def hasRunningJobsInQueue (queueName : String)
    (excludeJobId : Option JobId) : Sql Bool :=
  session do
    let count ← read fun db => (db.live.rows.filter fun row =>
      row.queueName = queueName && db.running row &&
        excludeJobId.all fun job => job = 0 || row.id ≠ job).length
    pure (0 < count)

/-- `can_execute_job`. -/
def canExecuteJob (job : Job) : Sql Bool :=
  if job.allowParallel then pure true
  else do
    let hasRunningInQueue ← hasRunningJobsInQueue job.queueName (some job.id)
    pure !hasRunningInQueue

/-- From the claim to the execution or the release. -/
def workerRound (cfg : Config) (queues : List String) (worker : String) :
    Sql (Option Claimed) := do
  match ← claimJob cfg queues worker with
  | none => pure none
  | some claimed =>
      if ← canExecuteJob claimed.job then pure (some claimed)
      else do
        releaseJob cfg claimed.job.id
        pure none

/-- What worker processes run, and what is called beside them. -/
inductive Turn where
  | round (queues : List String) (worker : String)
  | call (made : Call)
  deriving DecidableEq

/-- A round promises what a claim promises. -/
def Turn.like : Turn → Call
  | .round queues worker => .claimJob queues worker
  | .call made => made

def turnBody (cfg : Config) : Turn → Prog Db Write Lock Return
  | .round queues worker =>
      (Result.claimed <$> workerRound cfg queues worker : Sql Result).run
  | .call made => (system cfg).body made

/-- The backend with the rounds of workers.  No call requeues a row in
place. -/
def turns (cfg : Config) : Setting.Extension (backend cfg) Turn where
  body := turnBody cfg
  like := Turn.like
  beyond turn _ _ := turn.like.requeues = false

end Sqlery.Standalone
