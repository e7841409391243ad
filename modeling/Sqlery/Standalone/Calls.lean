import Sqlery.Standalone.Claim
import Sqlery.Standalone.Worker

/-!
# The system

Every process runs one call of the backend after the other.  The clock and the
ready table's generation move on their own.
-/

namespace Sqlery.Standalone

open ReadCommitted

inductive Call where
  | claimJob (queues : List String) (worker : String)
  | claimJobById (jobId : JobId) (worker : String)
  | atomicClaimJob (job : Job) (worker : Option WorkerId)
  | aclaimJob (queues : List String) (worker : String)
  | amarkRunning (jobId : JobId) (worker : String)
  | blockJob (job : Job)
  | markJobSuccess (jobId : JobId) (output : String)
      (expectedVersion : Option Nat) (attempt : Option AttemptHandle)
  | markJobFailed (jobId : JobId) (error traceback : String)
      (expectedVersion : Option Nat) (terminationReason : String)
      (attempt : Option AttemptHandle)
  | cancelJob (jobId : JobId)
  | expireQueuedJob (job : Job) (error terminationReason : String)
  | failZombieJob (jobId : JobId) (reason : String)
  | markJobArchived (jobId : JobId)
  | settleRetryPending (jobId : JobId)
  | cascadeAncestorStatus (jobId : JobId) (status : Status)
  | settleFinishedJobs (limit : Nat)
  | releaseJob (jobId : JobId)
  | releaseClaimedJob (job : Job) (worker : String) (status : Status)
      (jobsProcessed : Nat) (kwargs : Values)
  | maintainReadyQueue (queues : List String) (limit : Nat)
      (afterJobId : JobId)
  | releaseDependents (jobId : JobId) (parent : Option JobId)
  | recheckBlocked (jobId : JobId) (createdAt : Time)
  | createJob (spec : JobSpec)
  | advanceScheduledTaskIfDue (taskId : Nat) (observed next : Time)
      (spec : JobSpec)
  | failExecution (job : Job) (attempt : AttemptHandle)
      (error traceback : String) (willRetry : Bool)
  | recoverLostRetries (grace : Time) (limit : Nat)
  | cleanupStaleJobs (queue : Option String)
  deriving DecidableEq

inductive Result where
  | done
  | claimed (claimed : Option Claimed)
  | flag (value : Bool)
  | count (value : Nat)
  | found (found : Option Found)
  | created (created : Created)
  | advanced (job : Option Job)
  | rechecked (outcome : Recheck)
  | maintained (summary : Maintained)
  deriving DecidableEq

def scriptOf (cfg : Config) : Call → Sql Result
  | .claimJob queues worker => .claimed <$> claimJob cfg queues worker
  | .claimJobById jobId worker => .claimed <$> claimJobById cfg jobId worker
  | .atomicClaimJob job worker => .claimed <$> atomicClaimJob cfg job worker
  | .aclaimJob queues worker => .claimed <$> aclaimJob cfg queues worker
  | .amarkRunning jobId worker =>
      (fun _ => .done) <$> amarkRunning cfg jobId worker
  | .blockJob job => .flag <$> blockJob cfg job
  | .markJobSuccess jobId output expectedVersion attempt =>
      .found <$> markJobSuccess cfg jobId output expectedVersion attempt
  | .markJobFailed jobId error traceback expectedVersion reason attempt =>
      .found <$>
        markJobFailed cfg jobId error traceback expectedVersion reason attempt
  | .cancelJob jobId => .flag <$> cancelJob cfg jobId
  | .expireQueuedJob job error reason =>
      .flag <$> expireQueuedJob cfg job error reason
  | .failZombieJob jobId reason => .flag <$> failZombieJob cfg jobId reason
  | .markJobArchived jobId => (fun _ => .done) <$> markJobArchived cfg jobId
  | .settleRetryPending jobId =>
      (fun _ => .done) <$> settleRetryPending cfg jobId
  | .cascadeAncestorStatus jobId status =>
      (fun _ => .done) <$> cascadeAncestorStatus cfg jobId status
  | .settleFinishedJobs limit => .count <$> settleFinishedJobs cfg limit
  | .releaseJob jobId => (fun _ => .done) <$> releaseJob cfg jobId
  | .releaseClaimedJob job worker status jobsProcessed kwargs =>
      .found <$> releaseClaimedJob cfg job worker status jobsProcessed kwargs
  | .maintainReadyQueue queues limit afterJobId =>
      .maintained <$> maintainReadyQueue cfg queues limit afterJobId
  | .releaseDependents jobId parent =>
      .count <$> releaseDependents cfg jobId parent
  | .recheckBlocked jobId createdAt =>
      .rechecked <$> recheckBlocked cfg jobId createdAt
  | .createJob spec => .created <$> createJob cfg spec
  | .advanceScheduledTaskIfDue taskId observed next spec =>
      .advanced <$> advanceScheduledTaskIfDue cfg taskId observed next spec
  | .failExecution job attempt error traceback willRetry =>
      (fun _ => .done) <$>
        failExecution cfg job attempt error traceback willRetry
  | .recoverLostRetries grace limit =>
      (fun _ => .done) <$> recoverLostRetries cfg grace limit
  | .cleanupStaleJobs queue =>
      (fun _ => .done) <$> cleanupStaleJobs cfg queue

abbrev Return := Except Exc Result

def isAmbient : Write → Bool
  | .tick _ => true
  | .nextGeneration => true
  | _ => false

def system (cfg : Config) : System Db Write Lock Call Return where
  schema := schema cfg.dialect
  body call := (scriptOf cfg call).run
  ambient := isAmbient

end Sqlery.Standalone
