import Sqlery.Standalone.Calls

/-!
# The asyncio workers

The transitions of `SQLAlchemyAsyncBackend` that `core.async_worker` calls:
`amark_success`, `amark_failed`, `amark_shutting_down`, `arequeue_retry`,
`afail_zombie_job` and `arelease_dependents`.  They work on the same tables as
the synchronous backend, beside its calls.
-/

namespace Sqlery.Standalone

open ReadCommitted
open Script

/-! ## Dependents -/

/-- The retries `_arecheck_blocked` fetches before it judges, one level of the
chains after the other. -/
def fetchLevel :
    List Job → List (JobId × Option Job) → List Job →
      Sql (List (JobId × Option Job) × List Job)
  | [], retries, next => pure (retries, next)
  | dep :: rest, retries, next => do
      let child ← read fun db => db.latestRetry dep.id
      fetchLevel rest ((dep.id, child) :: retries)
        (next ++ child.toList.filter fun child =>
          child.status = .failed || child.status = .archived)

def fetchRetries :
    Nat → List Job → List (JobId × Option Job) →
      Sql (List (JobId × Option Job))
  | 0, _, retries => pure retries
  | hops + 1, frontier, retries =>
      if frontier = [] then pure retries
      else do
        let level ← fetchLevel frontier retries []
        fetchRetries hops level.2 level.1

/-- The judgement on what was fetched. -/
def ajudge (deps : List JobId) : Sql DependencyVerdict := do
  let rows ← read fun db => db.jobAll.filter fun row => row.id ∈ deps
  let fetch := fun dep => rows.reverse.find? fun row => row.id = dep
  let retries ← fetchRetries maxChainHops
    (((rows.map (·.id)).eraseDups.filterMap fetch).filter fun dep =>
      dep.status = .failed || dep.status = .archived) []
  judgeDependencies deps fetch fun job =>
    pure ((retries.find? fun entry => entry.1 = job).bind (·.2))

/-- The `SELECT` of the blocked job, if it is still queued. -/
def selectBlocked (jobId : JobId) (createdAt : Time) : Sql (Option Job) :=
  observe (fun db => (db.live.get jobId).filter fun job =>
      job.createdAt = createdAt && job.status = .queued) fun found =>
    if found.isSome then [.remark (.rechecks jobId)] else []

/-- `_arecheck_blocked`: unlike its synchronous twin it does not ask whether
the job is running. -/
def arecheckBlocked (cfg : Config) (jobId : JobId) (createdAt : Time) :
    Sql Recheck :=
  session do
    match ← selectBlocked jobId createdAt with
    | none => do
        let _ ← deleteBlockedStmt cfg [jobId]
        commit
        pure .gone
    | some job => do
        let verdict ← ajudge (dependencyIds job)
        match verdict.state with
        | .pending => do
            commit
            pure .blocked
        | .failed => do
            let _ ← deleteReadyStmt cfg [jobId]
            let _ ← deleteBlockedStmt cfg [jobId]
            let now ← currentTime
            let _ ← finishIn cfg
              { jobId
                createdAt := some createdAt
                requireStatus := some [.queued] }
              .failed
              { error := some (dependenciesFailed verdict.failed)
                terminationReason := some "dependency_failed"
                finishedAt := some now }
            commit
            pure .failed
        | .met => do
            let _ ← deleteBlockedStmt cfg [jobId]
            writeReady cfg [job]
            commit
            pure .ready

/-- The parent `arelease_dependents` starts from, if the caller names none. -/
def parentOr (jobId : JobId) (parent : Option JobId) : Sql (Option JobId) :=
  match parent with
  | some parent => pure (some parent)
  | none => read fun db => (db.anywhere jobId).bind (·.parentJobId)

def adependentsOf (jobId : JobId) (parent : Option JobId) :
    Sql (List (JobId × Time)) :=
  session do
    let parent ← parentOr jobId parent
    let ids ← ancestorIds maxChainHops [jobId] parent
    read fun db =>
      ((db.blocked.rows.filter fun row => row.dependencyId ∈ ids).map
        fun row => (row.jobId, row.createdAt)).eraseDups

def arecheckAll (cfg : Config) :
    List (JobId × Time) → Nat → Work → Sql (Nat × Work)
  | [], released, work => pure (released, work)
  | (job, createdAt) :: rest, released, work => do
      match ← arecheckBlocked cfg job createdAt with
      | .ready => arecheckAll cfg rest (released + 1) work
      | .failed => arecheckAll cfg rest released (work ++ [(job, none)])
      | .blocked => arecheckAll cfg rest released work
      | .gone => arecheckAll cfg rest released work

def areleaseLoop (cfg : Config) :
    Nat → Work → List JobId → Nat → Sql Nat
  | 0, _, _, _ => diverge
  | fuel + 1, work, seen, released =>
      match work.getLast? with
      | none => pure released
      | some (current, parent) =>
          if current ∈ seen then
            areleaseLoop cfg fuel work.dropLast seen released
          else do
            let dependents ← adependentsOf current parent
            let next ← arecheckAll cfg dependents released work.dropLast
            areleaseLoop cfg fuel next.2 (current :: seen) next.1

/-- `arelease_dependents`. -/
def areleaseDependents (cfg : Config) (jobId : JobId)
    (parent : Option JobId := none) : Sql Nat :=
  areleaseLoop cfg cfg.fuel [(jobId, parent)] [] 0

/-- `_arelease_dependents_quietly`. -/
def areleaseDependentsQuietly (cfg : Config) (jobId : JobId)
    (parent : Option JobId := none) : Sql Unit :=
  quietly (areleaseDependents cfg jobId parent)

/-! ## Completions -/

/-- The `UPDATE` of a failure that stays in the live table. -/
def markInPlace (cfg : Config) (jobId : JobId) (status : Status)
    (values : Values) : Sql Unit := do
  let _ ← updateLive cfg (fun _ row => row.id = jobId) fun row =>
    { values.update row with status, version := row.version + 1 }
  pure ()

/-- `_afinish`. -/
def afinish (cfg : Config) (jobId : JobId) (attempt : Option AttemptHandle)
    (outcome : Outcome) (status : Status) (values : Values)
    (inPlace : Bool) : Sql Unit := do
  let running ← openAttemptsIn jobId
  let values := values.withAttempt running
  -- A stale attempt raises: the session ends without a commit.
  closeAttempt cfg jobId attempt outcome
  if inPlace then do
    markInPlace cfg jobId status values
    commit
    whenever (outcome = .success) (areleaseDependentsQuietly cfg jobId)
  else do
    let parent ← read fun db => (db.live.get jobId).bind (·.parentJobId)
    if ← finishIn cfg { jobId } status values then do
      commit
      whenever (outcome = .success)
        (areleaseDependentsQuietly cfg jobId parent)
    else rollback

def amarkSuccess (cfg : Config) (jobId : JobId) (output : String)
    (attempt : Option AttemptHandle) : Sql Unit := do
  let now ← currentTime
  session (afinish cfg jobId attempt .success .success
    { finishedAt := some now, output := some output } false)

/-- A failure the worker is about to retry stays in the live table. -/
def amarkFailed (cfg : Config) (jobId : JobId) (error traceback : String)
    (attempt : Option AttemptHandle) : Sql Unit := do
  let now ← currentTime
  session do
    let row ← read fun db => db.live.get jobId
    afinish cfg jobId attempt .failed .failed
      { finishedAt := some now
        error := some error
        traceback := some traceback }
      (row.any retryBudgetLeft)

/-- The creation time that tells PostgreSQL the partition to write. -/
def partitionOf (cfg : Config) (jobId : JobId) : Sql (Option Time) :=
  if cfg.partitionedPg then
    read fun db => (db.live.get jobId).map (·.createdAt)
  else pure none

/-- `amark_shutting_down` writes the row whatever its status is. -/
def amarkShuttingDown (cfg : Config) (jobId : JobId) : Sql Unit :=
  session do
    let createdAt ← partitionOf cfg jobId
    let _ ← updateLive cfg
      (fun _ row => row.id = jobId &&
        createdAt.all fun created => row.createdAt = created)
      fun row => { row with status := .shuttingDown }
    commit

/-! ## Retries -/

/-- `retry_job_fields`: the columns of the retry and its delay in seconds. -/
def retryJobFields (failed : Job) : JobSpec × Rat :=
  let backoff := if failed.retryBackoff = 0 then 1 else failed.retryBackoff
  ({ taskPath := failed.taskPath
     kwargs := failed.kwargs
     queueName := failed.queueName
     priority := failed.priority
     parentJobId := some failed.id
     retryCount := failed.retryCount + 1
     maxRetries := failed.maxRetries
     retryBackoff := backoff
     allowParallel := failed.allowParallel
     timeoutSeconds := failed.timeoutSeconds
     jobName := failed.jobName.bind fun name =>
       if name = "" then none
       else some (retryJobName name (failed.retryCount + 1))
     retryIntervals := failed.retryIntervals
     dependencies := failed.dependencies
     tags := failed.tags
     metadata := failed.metadata
     onSuccessPath := failed.onSuccessPath
     onFailurePath := failed.onFailurePath
     resultTtl := failed.resultTtl
     failureTtl := failed.failureTtl },
   computeRetryDelay backoff failed.retryCount.toNat failed.retryIntervals)

/-- `arequeue_retry`: the retry and the move of the failed row it supersedes
are one transaction.  The new row is flushed by the query that follows it. -/
def arequeueRetry (cfg : Config) (failed : Job) : Sql Unit := do
  let now ← currentTime
  session do
    let createdAt ← currentTime
    let _ ← flushNew cfg
      { (retryJobFields failed).1 with
        scheduledAt := some (now + toMicroseconds (retryJobFields failed).2) }
      createdAt
    match ← read fun db => (db.live.get failed.id).filter fun row =>
        row.status = .failed with
    | none => commit
    | some row => do
        let _ ← finishIn cfg
          { jobId := failed.id
            createdAt := some row.createdAt
            requireStatus := some [.failed] }
          .archived
          { terminationReason :=
              some (settledTerminationReason row.terminationReason) }
        commit

/-! ## Zombies -/

/-- `afail_zombie_job`: the transaction is that of `fail_zombie_job`. -/
def afailZombieJob (cfg : Config) (jobId : JobId) (reason : String) :
    Sql Bool := do
  match ← session (failZombieIn cfg jobId reason) with
  | none => pure false
  | some parent => do
      areleaseDependentsQuietly cfg jobId parent
      pure true

/-! ## The system of both kinds of workers -/

inductive WorkerCall where
  /-- A call of the synchronous backend, or a claim of the asynchronous
  one. -/
  | call (call : Call)
  | amarkSuccess (jobId : JobId) (output : String)
      (attempt : Option AttemptHandle)
  | amarkFailed (jobId : JobId) (error traceback : String)
      (attempt : Option AttemptHandle)
  | amarkShuttingDown (jobId : JobId)
  | arequeueRetry (failed : Job)
  | afailZombieJob (jobId : JobId) (reason : String)
  | areleaseDependents (jobId : JobId) (parent : Option JobId)
  deriving DecidableEq

def workerScript (cfg : Config) : WorkerCall → Sql Result
  | .call call => scriptOf cfg call
  | .amarkSuccess jobId output attempt =>
      (fun _ => .done) <$> amarkSuccess cfg jobId output attempt
  | .amarkFailed jobId error traceback attempt =>
      (fun _ => .done) <$> amarkFailed cfg jobId error traceback attempt
  | .amarkShuttingDown jobId =>
      (fun _ => .done) <$> amarkShuttingDown cfg jobId
  | .arequeueRetry failed => (fun _ => .done) <$> arequeueRetry cfg failed
  | .afailZombieJob jobId reason =>
      .flag <$> afailZombieJob cfg jobId reason
  | .areleaseDependents jobId parent =>
      .count <$> areleaseDependents cfg jobId parent

/-- The calls of synchronous and asynchronous workers over one database. -/
def workers (cfg : Config) : System Db Write Lock WorkerCall Return where
  schema := schema cfg.dialect
  body call := (workerScript cfg call).run
  ambient := isAmbient

end Sqlery.Standalone
