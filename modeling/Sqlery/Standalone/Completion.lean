import Sqlery.Standalone.Transitions

/-!
# Completions, releases and sweeps

The transitions that end a claim or a job: `mark_job_success`,
`mark_job_failed`, `cancel_job`, `expire_queued_job`, `fail_zombie_job`,
`mark_job_archived`, `settle_retry_pending`, `cascade_ancestor_status`,
`settle_finished_jobs`, `release_job`, `release_claimed_job` and
`maintain_ready_queue`.
-/

namespace Sqlery.Standalone

open ReadCommitted
open Script

/-- Where a job was found: the live table, history or the staging table. -/
inductive Found where
  | live (job : Job)
  | finished (row : Job)
  | staged (row : Staged)
  deriving DecidableEq, Repr

/-- The attempt a queued row is shown by. -/
def openAttemptIfQueued (job : Job) : Sql (Option Attempt) :=
  if job.status = .queued then openAttemptsIn job.id else pure none

/-- `get_job_by_id`. -/
def getJobById (cfg : Config) (jobId : JobId) : Sql (Option Found) :=
  session do
    match ← read fun db => db.live.get jobId with
    | some job => do
        let attempt ← openAttemptIfQueued job
        pure (some (.live (overlayRunning job attempt)))
    | none => do
        match ← read fun db => db.historyOf jobId with
        | some row => pure (some (.finished row))
        | none =>
            if cfg.partitionedPg then
              read fun db => (db.staged.get jobId).map .staged
            else pure none

/-- `_find_job`. -/
def findJob (jobId : JobId) : Sql (Option Found) := do
  match ← read fun db => db.live.get jobId with
  | some job => pure (some (.live job))
  | none => read fun db => (db.historyOf jobId).map .finished

/-! ## Fenced completions -/

def statusText : Status → String
  | .queued => "queued"
  | .running => "running"
  | .success => "success"
  | .failed => "failed"
  | .archived => "archived"
  | .shuttingDown => "shutting_down"

/-- `_already_finished`. -/
def alreadyFinished (row : Job) (expectedVersion : Option Nat)
    (attempt : Option AttemptHandle) : Sql (Option Found) :=
  if expectedVersion.isSome || attempt.isSome then
    raise (.fencing (s!"Job {row.id} already finished " ++
      s!"({statusText row.status}); completion rejected"))
  else pure (some (.finished row))

/-- The write of a completion: a failure that will be retried is recorded in
place, any other completion moves the row. -/
def recordOutcome (cfg : Config) (jobId : JobId)
    (expectedVersion : Option Nat) (status : Status) (values : Values) :
    Sql Bool :=
  if status = .failed && isRetryPending (values.terminationReason.getD "")
  then do
    let updated ← updateLive cfg
      (fun _ row => row.id = jobId &&
        expectedVersion.all fun version => row.version = version)
      fun row =>
        { values.update row with status, version := row.version + 1 }
    pure (0 < updated)
  else finishIn cfg { jobId, expectedVersion } status values

/-- `_fenced_update`. -/
def fencedUpdate (cfg : Config) (jobId : JobId) (expectedVersion : Option Nat)
    (status : Status) (values : Values) (attempt : Option AttemptHandle)
    (outcome : Outcome) (parent : Option JobId) : Sql (Option Found) := do
  -- A stale attempt raises: the session ends without a commit.
  closeAttempt cfg jobId attempt outcome
  let applied ← recordOutcome cfg jobId expectedVersion status values
  if applied then do
    commit
    whenever ((status = .success || status = .failed) &&
        !isRetryPending (values.terminationReason.getD ""))
      (releaseDependentsQuietly cfg jobId parent)
    findJob jobId
  else do
    rollback
    match expectedVersion with
    | some version =>
        raise (.fencing (s!"Job {jobId} was reclaimed by another worker " ++
          s!"(expected version {version})"))
    | none => pure none

/-- The part `mark_job_success` and `mark_job_failed` share: `mark` computes
the outcome on a detached copy of the row, `values` are the columns written. -/
def markJob (cfg : Config) (jobId : JobId) (expectedVersion : Option Nat)
    (attempt : Option AttemptHandle) (outcome : Outcome)
    (mark : Job → Time → Job) (values : Job → Values) : Sql (Option Found) := do
  match ← getJobById cfg jobId with
  | some (.finished row) => alreadyFinished row expectedVersion attempt
  | some (.live job) =>
      session do
        match ← read fun db => db.live.get jobId with
        | none => pure (some (.live job))
        | some row => do
            let running ← openAttemptsIn jobId
            let now ← currentTime
            let marked := mark (overlayRunning row running) now
            fencedUpdate cfg jobId expectedVersion marked.status
              ((values marked).withAttempt running) attempt outcome
              row.parentJobId
  | other => pure other

def markJobSuccess (cfg : Config) (jobId : JobId) (output : String)
    (expectedVersion : Option Nat) (attempt : Option AttemptHandle) :
    Sql (Option Found) :=
  markJob cfg jobId expectedVersion attempt .success
    (fun job now => markSuccess job output now)
    fun job => {
      finishedAt := job.finishedAt
      durationSeconds := some job.durationSeconds
      output := some job.output
      runs := some job.runs }

def markJobFailed (cfg : Config) (jobId : JobId) (error traceback : String)
    (expectedVersion : Option Nat) (terminationReason : String)
    (attempt : Option AttemptHandle) : Sql (Option Found) :=
  markJob cfg jobId expectedVersion attempt .failed
    (fun job now => markFailed job error traceback terminationReason now)
    fun job => {
      finishedAt := job.finishedAt
      durationSeconds := some job.durationSeconds
      error := some job.error
      traceback := some job.traceback
      terminationReason := some job.terminationReason
      runs := some job.runs }

/-! ## Cancel and expire -/

/-- The part of `cancel_job` on the live table. -/
def cancelLive (cfg : Config) (jobId : JobId) : Sql Bool := do
  match ← read fun db => (db.live.get jobId).filter db.waiting with
  | none => pure false
  | some job => do
      let _ ← deleteReadyStmt cfg [jobId]
      let _ ← deleteBlockedStmt cfg [jobId]
      let cancelled ← finishIn cfg
        { jobId
          createdAt := some job.createdAt
          requireStatus := some [.queued]
          requireIdle := true }
        .failed { error := some "Cancelled by user" }
      if cancelled then do
        commit
        releaseDependentsQuietly cfg jobId
        pure true
      else do
        rollback
        pure false

/-- `session.delete(staged)`, by primary key. -/
def deleteStaged (cfg : Config) (jobId : JobId) : Sql Unit := do
  let _ ← exec (dml Db.staged cfg (fun _ row => row.id = jobId)
    fun row => .deleteStaged row.id)
  pure ()

def cancelJob (cfg : Config) (jobId : JobId) : Sql Bool :=
  session do
    if ← cancelLive cfg jobId then pure true
    else if cfg.partitionedPg then do
      match ← read fun db => db.staged.get jobId with
      | none => pure false
      | some _ => do
          deleteStaged cfg jobId
          commit
          pure true
    else pure false

/-- `expire_queued_job`: the caller passes a row it read earlier. -/
def expireQueuedJob (cfg : Config) (job : Job) (error reason : String) :
    Sql Bool := do
  let done ← session do
    let now ← currentTime
    if ← failQueued cfg job error reason now then do
      commit
      pure true
    else do
      rollback
      pure false
  whenever done (releaseDependentsQuietly cfg job.id)
  pure done

/-! ## Zombies -/

/-- The transaction of `fail_zombie_job`; on success it returns the job's
parent. -/
def failZombieIn (cfg : Config) (jobId : JobId) (reason : String) :
    Sql (Option (Option JobId)) := do
  match ← read fun db => (db.live.get jobId).filter fun job =>
      job.status = .queued with
  | none => pure none
  | some job => do
      match ← openAttemptsIn jobId with
      | none => pure none
      | some attempt => do
          let now ← currentTime
          let closed ← closeUnfencedStmt cfg jobId .abandoned now
          if closed < 1 then do
            rollback
            pure none
          else do
            let later ← currentTime
            let marked := markFailed (overlayRunning job (some attempt)) reason
              "" "zombie_job" later
            let moved ← finishIn cfg
              { jobId, createdAt := some job.createdAt } .failed
              { finishedAt := marked.finishedAt
                durationSeconds := some marked.durationSeconds
                error := some marked.error
                traceback := some marked.traceback
                terminationReason := some marked.terminationReason
                runs := some marked.runs }
            if moved then do
              commit
              pure (some job.parentJobId)
            else do
              rollback
              pure none

def failZombieJob (cfg : Config) (jobId : JobId) (reason : String) :
    Sql Bool := do
  match ← session (failZombieIn cfg jobId reason) with
  | none => pure false
  | some parent => do
      releaseDependentsQuietly cfg jobId parent
      pure true

/-! ## Rows that stay behind -/

/-- `mark_job_archived` and `settle_retry_pending` differ in the status the
failed row enters history with. -/
def finishFailed (cfg : Config) (jobId : JobId) (status : Status) :
    Sql Unit :=
  session do
    match ← read fun db => (db.live.get jobId).filter fun job =>
        job.status = .failed with
    | none => pure ()
    | some job => do
        let _ ← finishIn cfg
          { jobId
            createdAt := some job.createdAt
            requireStatus := some [.failed] }
          status
          { terminationReason :=
              some (settledTerminationReason job.terminationReason) }
        commit

def markJobArchived (cfg : Config) (jobId : JobId) : Sql Unit :=
  finishFailed cfg jobId .archived

def settleRetryPending (cfg : Config) (jobId : JobId) : Sql Unit :=
  finishFailed cfg jobId .failed

/-- One ancestor of `cascade_ancestor_status`. -/
def cascadeOne (cfg : Config) (jobId : JobId) (createdAt : Time)
    (status : Status) : Sql Unit :=
  if isTerminal status then do
    let _ ← finishIn cfg
      { jobId
        createdAt := some createdAt
        requireStatus := some [.queued, .running, .failed, .shuttingDown] }
      status {}
    pure ()
  else do
    let _ ← updateLive cfg
      (fun _ row => row.id = jobId && row.createdAt = createdAt &&
        decide (row.status ∉ [Status.success, Status.archived]))
      fun row => { row with status }
    pure ()

def cascadeLoop (cfg : Config) (status : Status) :
    Nat → List JobId → Option JobId → Sql Unit
  | 0, _, _ => diverge
  | fuel + 1, seen, current =>
      match current with
      | none => pure ()
      | some jobId =>
          if jobId = 0 || jobId ∈ seen then pure ()
          else do
            match ← read fun db => db.anywhere jobId with
            | none => pure ()
            | some row => do
                cascadeOne cfg jobId row.createdAt status
                cascadeLoop cfg status fuel (jobId :: seen) row.parentJobId

def cascadeAncestorStatus (cfg : Config) (jobId : JobId) (status : Status) :
    Sql Unit :=
  session do
    let parent ← read fun db => (db.anywhere jobId).bind (·.parentJobId)
    cascadeLoop cfg status cfg.fuel [] parent
    commit

/-- `stray_terminal_stmt`. -/
def strays (cfg : Config) (limit : Nat) (cutoff : Time) (db : Db) :
    List Job :=
  ((db.live.rows.filter fun job =>
      isTerminal job.status &&
        !likeRetryPending (cfg.dialect = .sqlite) job.terminationReason &&
        job.finishedAt.all (· ≤ cutoff)).insertionSort fun left right =>
      left.createdAt < right.createdAt ||
        (left.createdAt = right.createdAt && left.id ≤ right.id)).take limit

/-- The sweep's own commits expire the rows read before, which are then read
again. -/
def currentStray (stray : Job) (expired : Bool) : Sql (Option Job) :=
  if expired then
    read fun db => (db.live.get stray.id).filter fun job =>
      job.createdAt = stray.createdAt
  else pure (some stray)

/-- One row of the settle sweep; `none` leaves it. -/
def settleRow (cfg : Config) (stray : Job) (expired : Bool) :
    Sql (Option Bool) := do
  match ← currentStray stray expired with
  | none => raise (.runtime "ObjectDeletedError")
  | some job => do
      let hasRetry ← read fun db =>
        db.jobAll.any fun row => row.parentJobId = some job.id
      match settleStatus job.status job.terminationReason hasRetry with
      | none => pure none
      | some status => do
          let ok ← finishIn cfg
            { jobId := job.id
              createdAt := some job.createdAt
              requireStatus := some [job.status] }
            status
            { terminationReason :=
                some (settledTerminationReason job.terminationReason) }
          commit
          whenever ok (releaseDependentsQuietly cfg job.id job.parentJobId)
          pure (some ok)

/-- The loop; an exception ends the sweep and is logged. -/
def settleLoop (cfg : Config) :
    List Job → Bool → Nat → Prog Db Write Lock Nat
  | [], _, moved => .done moved
  | job :: rest, expired, moved =>
      (settleRow cfg job expired).run.bind fun result =>
        match result with
        | .error _ => .done moved
        | .ok none => settleLoop cfg rest expired moved
        | .ok (some ok) =>
            settleLoop cfg rest true (if ok then moved + 1 else moved)

def settleFinishedJobs (cfg : Config) (limit : Nat := 200) : Sql Nat := do
  let now ← currentTime
  session do
    let rows ← read (strays cfg limit (now - cfg.settleGrace))
    ExceptT.mk ((settleLoop cfg rows false 0).bind fun moved =>
      .done (.ok moved))

/-! ## Releases -/

def releaseJob (cfg : Config) (jobId : JobId) : Sql Unit :=
  session do
    match ← read fun db => (db.live.get jobId).filter fun job =>
        job.status = .queued with
    | none => pure ()
    | some job => do
        let now ← currentTime
        let closed ← closeUnfencedStmt cfg jobId .abandoned now
        if closed < 1 then rollback
        else do
          writeReady cfg [job]
          commit

/-- The ORM write of a status that is neither terminal nor `queued`: the hook
drops the entries when the status changes, then the row is updated by its
primary key. -/
def setStatus (cfg : Config) (job : Job) (status : Status) (values : Values) :
    Sql Unit := do
  whenever (job.status ≠ status) (dropEntries cfg [job.id])
  let updated ← updateLive cfg (fun _ => sameRow job)
    fun row => { values.update row with status }
  if updated = 1 then pure () else raise (.runtime "StaleDataError")

/-- `session.get(Worker, ..)` and the update back to idle. -/
def idleWorker (cfg : Config) (worker : String) (jobsProcessed : Nat) :
    Sql Unit := do
  match ← read fun db => db.workers.get (cfg.workerPk worker) with
  | none => pure ()
  | some found => do
      let now ← currentTime
      let _ ← exec (dml Db.workers cfg (fun _ row => row.id = found.id)
        fun row => .setWorker
          { row with
            status := "idle"
            currentJobId := none
            jobsProcessed
            lastHeartbeat := now })
      pure ()

/-- The job's part of `release_claimed_job`. -/
def releaseRow (cfg : Config) (job : Job) (status : Status)
    (values : Values) : Sql Unit := do
  let attempt ← openAttemptsIn job.id
  let startedAt := (attempt.map (·.claimedAt)).or job.startedAt
  closeAttempt cfg job.id none (if status = .success then .success else .failed)
  let finishedAt ← currentTime
  let values :=
    { values with
      finishedAt := values.finishedAt.or (some finishedAt)
      durationSeconds := values.durationSeconds.or
        (some (startedAt.map (finishedAt - ·))) }
  if isTerminal status then do
    let _ ← finishIn cfg { jobId := job.id, createdAt := some job.createdAt }
      status values
    pure ()
  else if status = .queued then writeReady cfg [job]
  else setStatus cfg job status values

def isFinal : Found → Bool
  | .live job => job.status = .success || job.status = .failed
  | .finished row => row.status = .success || row.status = .failed
  | .staged _ => false

/-- The row object of a release that does not end the job is read again after
the commit. -/
def reread (job : Job) : Sql Unit := do
  match ← read fun db => (db.live.get job.id).filter (sameRow job) with
  | some _ => pure ()
  | none => raise (.runtime "ObjectDeletedError")

def releaseFound (cfg : Config) (found : Option Job) (status : Status)
    (kwargs : Values) : Sql Unit :=
  match found with
  | some row => releaseRow cfg row status kwargs
  | none => pure ()

/-- What `release_claimed_job` reads back, with the job's parent. -/
def releasedJob (found : Option Job) (status : Status) :
    Sql (Option (Option JobId × Option Found)) :=
  match found with
  | none => pure none
  | some row => do
      whenever (!isTerminal status) (reread row)
      let result ← findJob row.id
      pure (some (row.parentJobId, result))

/-- `release_claimed_job`: `kwargs` holds result columns only. -/
def releaseClaimedJob (cfg : Config) (job : Job) (worker : String)
    (status : Status) (jobsProcessed : Nat) (kwargs : Values) :
    Sql (Option Found) := do
  let outcome ← session do
    let found ← read fun db => (db.live.get job.id).filter fun row =>
      row.createdAt = job.createdAt
    releaseFound cfg found status kwargs
    idleWorker cfg worker jobsProcessed
    commit
    releasedJob found status
  match outcome with
  | some (parent, some result) => do
      whenever (isFinal result) (releaseDependentsQuietly cfg job.id parent)
      pure (some result)
  | _ => pure none

/-! ## `maintain_ready_queue` -/

def hasEntry (db : Db) (job : JobId) : Bool :=
  db.ready.rows.any fun entry => entry.slot ∈ slots && entry.jobId = job

def hasBlockedRow (db : Db) (job : JobId) : Bool :=
  db.blocked.rows.any fun row => row.jobId = job

def inQueues (queues : List String) (queue : String) : Bool :=
  queues = [] || queue ∈ queues

/-- Queued jobs with neither a ready nor a blocked entry. -/
def lostJobs (queues : List String) (limit : Nat) (db : Db) : List Job :=
  (db.live.rows.filter fun job =>
    db.waiting job && !hasEntry db job.id && !hasBlockedRow db job.id &&
      inQueues queues job.queueName).take limit

def isStale (queues : List String) (db : Db) (entry : Ready) : Bool :=
  !(db.live.rows.any fun job => job.id = entry.jobId &&
      job.createdAt = entry.createdAt && db.waiting job) &&
    inQueues queues entry.queueName

def staleEntries (cfg : Config) (queues : List String) (limit : Nat) :
    Sql (List Ready) :=
  match cfg.dialect with
  | .postgresql =>
      exec (selectSkipLocked Db.ready
        (fun entry => .ready entry.slot entry.jobId) (isStale queues) id limit)
  | .sqlite => read fun db =>
      (db.ready.rows.filter (isStale queues db)).take limit

def dropStale (cfg : Config) : List Ready → Nat → Sql Nat
  | [], dropped => pure dropped
  | entry :: rest, dropped => do
      let deleted ← deleteEntryStmt cfg entry.slot entry.jobId
      dropStale cfg rest (dropped + deleted)

def blockedPage (afterJobId : JobId) (limit : Nat) (db : Db) :
    List (JobId × Time) :=
  ((((db.blocked.rows.filter fun row => afterJobId < row.jobId).map
    fun row => (row.jobId, row.createdAt)).eraseDups).insertionSort
      fun left right => left.1 ≤ right.1).take limit

structure Maintained where
  restored : Nat
  dropped : Nat
  rechecked : Nat
  settled : Nat
  cursor : JobId
  deriving DecidableEq, Repr

/-- The repair transaction and the page of blocked jobs read after it. -/
def repairEntries (cfg : Config) (queues : List String) (limit : Nat)
    (afterJobId : JobId) : Sql (Nat × Nat × List (JobId × Time)) :=
  session do
    let lost ← read (lostJobs queues limit)
    whenever (lost ≠ []) (writeReady cfg lost)
    let stale ← staleEntries cfg queues limit
    let dropped ← dropStale cfg stale 0
    commit
    let page ← read (blockedPage afterJobId limit)
    pure (lost.length, dropped, page)

def maintainReadyQueue (cfg : Config) (queues : List String)
    (limit : Nat := 200) (afterJobId : JobId := 0) : Sql Maintained := do
  let settled ← settleFinishedJobs cfg limit
  let repaired ← repairEntries cfg queues limit afterJobId
  let page := repaired.2.2
  each (fun job => recheckBlockedQuietly cfg job.1 job.2) page
  pure {
    restored := repaired.1
    dropped := repaired.2.1
    rechecked := page.length
    settled
    cursor := if limit ≤ page.length then
      (page.getLast?.map (·.1)).getD 0 else 0 }

end Sqlery.Standalone
