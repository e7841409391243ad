import Sqlery.Standalone.Statements

/-!
# Transitions of one job

The private helpers of the backend that run inside a caller's transaction, and
the re-judging of blocked jobs that follows when a job finishes.
-/

namespace Sqlery.Standalone

open ReadCommitted
open Script

/-! ## Entries -/

/-- `rotation.writer_slot`. -/
def writerSlot (cfg : Config) : Sql Nat :=
  if cfg.rotation && cfg.dialect = .postgresql then
    read fun db => slotForGeneration db.generation
  else pure 0

/-- The jobs with an open attempt; jobs the caller has just inserted (`fresh`)
are not looked at. -/
def runningAmong (jobs : List Job) (fresh : Bool) : Sql (List JobId) :=
  if fresh then pure []
  else read fun db => (jobs.map (·.id)).filter db.hasOpenAttempt

/-- `write_ready`: a job with an open attempt gets no entry. -/
def writeReady (cfg : Config) (jobs : List Job) (fresh : Bool := false) :
    Sql Unit := do
  let running ← runningAmong jobs fresh
  let idle := jobs.filter fun job => job.id ∉ running
  if idle = [] then pure ()
  else do
    let slot ← writerSlot cfg
    insertReadyStmt cfg (idle.map fun job => readyValues job slot)

/-- `_drop_entries`. -/
def dropEntries (cfg : Config) (jobs : List JobId) : Sql Unit := do
  let _ ← deleteReadyStmt cfg jobs
  let _ ← deleteBlockedStmt cfg jobs
  pure ()

/-! ## Attempts -/

inductive ClaimOutcome where
  | claimed
  | keep
  | restore
  deriving DecidableEq, Repr

def isRunning (job : JobId) : Sql Bool :=
  read fun db => db.hasOpenAttempt job

/-- The row just read, if it is queued and idle. -/
def ifWaiting (found : Option Job) : Sql (Option Job) :=
  match found with
  | none => pure none
  | some job =>
      if job.status ≠ .queued then pure none
      else do
        let running ← isRunning job.id
        pure (if running then none else some job)

def sameRow (job row : Job) : Bool :=
  row.id = job.id && row.createdAt = job.createdAt

/-- The row lock of a claim. -/
def lockJob (cfg : Config) (job : Job) : Sql (Option Job) :=
  match cfg.dialect with
  | .postgresql => do
      let rows ← exec (selectSkipLocked Db.live (fun row => .live row.id)
        (fun _ => sameRow job) id 1)
      pure rows.head?
  | .sqlite => read fun db => (db.live.rows.filter (sameRow job)).head?

/-- `_start_attempt` (and `_astart_attempt`): lock and judge the job row, then
insert the attempt that makes the job running. -/
def startAttempt (cfg : Config) (job : Job) (worker : Option WorkerId)
    (now : Time) : Sql (Option AttemptHandle × ClaimOutcome) := do
  match ← lockJob cfg job with
  | none => pure (none, .restore)
  | some row =>
      let running ← isRunning job.id
      if claimVerdict row.status row.version job.version running = .ok then do
        let handle ← insertAttempt cfg job.id worker now
        pure (some handle, .claimed)
      else if row.status ≠ .queued || running then pure (none, .keep)
      else pure (none, .restore)

/-- `_close_attempt`. -/
def closeAttempt (cfg : Config) (job : JobId) (attempt : Option AttemptHandle)
    (outcome : Outcome) : Sql Unit := do
  let now ← currentTime
  match attempt with
  | some handle => do
      let rowcount ← closeExactStmt cfg handle outcome now
      match decideClose rowcount handle with
      | .ok _ => pure ()
      | .error exception => raise exception
  | none => do
      let _ ← closeUnfencedStmt cfg job outcome now
      pure ()

/-! ## Moving a job into history -/

/-- `_finish_in`. -/
def finishIn (cfg : Config) (fence : MoveFence) (status : Status)
    (values : Values) : Sql Bool := do
  let now ← currentTime
  let locked ← lockForMove cfg fence
  if locked = [] then pure false
  else do
    let inserted ← insertHistory cfg fence status values now
    let deleted ← deleteLive cfg fence
    if inserted.length = 1 && deleted = 1 then do
      let now ← currentTime
      let _ ← closeStragglersStmt cfg fence.jobId status now
      pure true
    else
      raise (.runtime (s!"moving job {fence.jobId} to history touched an " ++
        "unexpected row count"))

/-- `_fail_queued`. -/
def failQueued (cfg : Config) (job : Job) (error reason : String)
    (now : Time) : Sql Bool := do
  let _ ← deleteReadyStmt cfg [job.id]
  let _ ← deleteBlockedStmt cfg [job.id]
  finishIn cfg
    { jobId := job.id
      createdAt := some job.createdAt
      requireStatus := some [.queued]
      requireIdle := true }
    .failed
    { error := some error
      terminationReason := some reason
      finishedAt := some now }

/-! ## Dependencies -/

/-- `_judge_dependencies`. -/
def judge (deps : List JobId) : Sql DependencyVerdict := do
  let rows ← read fun db => db.jobAll.filter fun row => row.id ∈ deps
  judgeDependencies deps
    (fun dep => rows.reverse.find? fun row => row.id = dep)
    fun job => read fun db => db.latestRetry job

inductive Recheck where
  | ready
  | failed
  | blocked
  | gone
  deriving DecidableEq, Repr

def dependenciesFailed (failed : List JobId) : String :=
  s!"Dependencies failed: {failed}"

/-- `_recheck_blocked`. -/
def recheckBlocked (cfg : Config) (jobId : JobId) (createdAt : Time) :
    Sql Recheck :=
  session do
    let found ← read fun db => (db.live.get jobId).filter fun job =>
      job.createdAt = createdAt
    match ← ifWaiting found with
    | some job => do
        let verdict ← judge (dependencyIds job)
        match verdict.state with
        | .pending => do
            commit
            pure .blocked
        | .failed => do
            let now ← currentTime
            let _ ← failQueued cfg job (dependenciesFailed verdict.failed)
              "dependency_failed" now
            commit
            pure .failed
        | .met => do
            let _ ← deleteBlockedStmt cfg [jobId]
            writeReady cfg [job]
            commit
            pure .ready
    | none => do
        let _ ← deleteBlockedStmt cfg [jobId]
        commit
        pure .gone

/-- The ids whose dependents are looked up: the job and its retry
ancestors. -/
def ancestorIds : Nat → List JobId → Option JobId → Sql (List JobId)
  | 0, ids, _ => pure ids
  | hops + 1, ids, parent =>
      match parent with
      | none => pure ids
      | some job =>
          if job = 0 || job ∈ ids then pure ids
          else do
            let next ← read fun db => (db.anywhere job).bind (·.parentJobId)
            ancestorIds hops (ids ++ [job]) next

/-- `_dependents_of`. -/
def dependentsOf (jobId : JobId) (parent : Option JobId) :
    Sql (List (JobId × Time)) :=
  session do
    let ids ← ancestorIds maxChainHops [jobId] parent
    read fun db =>
      ((db.blocked.rows.filter fun row => row.dependencyId ∈ ids).map
        fun row => (row.jobId, row.createdAt)).eraseDups

abbrev Work := List (JobId × Option JobId)

def recheckAll (cfg : Config) :
    List (JobId × Time) → Nat → Work → Sql (Nat × Work)
  | [], released, work => pure (released, work)
  | (job, createdAt) :: rest, released, work => do
      match ← recheckBlocked cfg job createdAt with
      | .ready => recheckAll cfg rest (released + 1) work
      | .failed => recheckAll cfg rest released (work ++ [(job, none)])
      | .blocked => recheckAll cfg rest released work
      | .gone => recheckAll cfg rest released work

def releaseLoop (cfg : Config) :
    Nat → Work → List JobId → Nat → Sql Nat
  | 0, _, _, _ => diverge
  | fuel + 1, work, seen, released =>
      match work.getLast? with
      | none => pure released
      | some (current, parent) =>
          if current ∈ seen then
            releaseLoop cfg fuel work.dropLast seen released
          else do
            let dependents ← dependentsOf current parent
            let next ← recheckAll cfg dependents released work.dropLast
            releaseLoop cfg fuel next.2 (current :: seen) next.1

/-- `release_dependents`. -/
def releaseDependents (cfg : Config) (jobId : JobId)
    (parent : Option JobId := none) : Sql Nat :=
  releaseLoop cfg cfg.fuel [(jobId, parent)] [] 0

/-- `_release_dependents_quietly`. -/
def releaseDependentsQuietly (cfg : Config) (jobId : JobId)
    (parent : Option JobId := none) : Sql Unit :=
  quietly (releaseDependents cfg jobId parent)

/-- `_recheck_blocked_quietly`. -/
def recheckBlockedQuietly (cfg : Config) (jobId : JobId) (createdAt : Time) :
    Sql Unit :=
  quietly (recheckBlocked cfg jobId createdAt)

end Sqlery.Standalone
