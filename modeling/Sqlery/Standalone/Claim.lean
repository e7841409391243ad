import Sqlery.Standalone.Transitions

/-!
# Claiming

`claim_job`, `claim_job_by_id` and `atomic_claim_job` of the synchronous
backend, `aclaim_job` and `amark_running` of the asynchronous one, and
`block_job`.
-/

namespace Sqlery.Standalone

open ReadCommitted
open Script

/-- A claimed job as the caller sees it, with the handle it carries. -/
structure Claimed where
  job : Job
  handle : AttemptHandle
  deriving DecidableEq, Repr

/-- `_as_running`. -/
def asRunning (job : Job) (handle : AttemptHandle) : Claimed where
  job :=
    { job with
      status := .running
      startedAt := handle.claimedAt
      workerId := handle.workerId
      workerPid := handle.workerPid
      childPid := none }
  handle := handle

def ephemeralClaimers : List String := ["lambda-", "trigger-"]

/-- `_attempt_worker_id`. -/
def attemptWorkerId (cfg : Config) (worker : String) : Option WorkerId :=
  if ephemeralClaimers.any fun start =>
      start.toList.isPrefixOf worker.toList then none
  else some (cfg.workerPk worker)

/-! ## Tag limits -/

/-- `_count_tag_in_session`. -/
def countTag (tag : String) (statuses : List Status) (since : Option Time) :
    Sql Nat :=
  read fun db => (db.jobAll.filter fun row =>
    row.status ∈ statuses &&
      since.all (fun start => row.startedAt.any (start ≤ ·)) &&
      tag ∈ row.tags).length

/-- `pg_try_advisory_xact_lock(hashtext(:t))`. -/
def tryTagLock (tag : String) : Sql Bool :=
  exec fun _ _ others =>
    if others.busy (.tag tag) then some { result := false }
    else some { result := true, locks := [.tag tag] }

def tryTagLocks : List String → Sql Bool
  | [] => pure true
  | tag :: rest => do
      if ← tryTagLock tag then tryTagLocks rest else pure false

def overConcurrency (cfg : Config) (tag : String) : Sql Bool :=
  match cfg.tagConcurrencyLimits.lookup tag with
  | none => pure false
  | some limit => do
      let running ← countTag tag [.running] none
      pure (limit ≤ running)

def overRate (cfg : Config) (now : Time) (tag : String) : Sql Bool :=
  match cfg.tagRateLimits.lookup tag with
  | some (some (count, window)) => do
      let started ← countTag tag [.running, .success, .failed]
        (some (now - window))
      pure (count ≤ started)
  | _ => pure false

def overLimit (cfg : Config) (now : Time) : List String → Sql Bool
  | [] => pure false
  | tag :: rest => do
      if ← overConcurrency cfg tag then pure true
      else if ← overRate cfg now tag then pure true
      else overLimit cfg now rest

/-- SQLite has one writer anyway. -/
def lockTags (cfg : Config) (tags : List String) : Sql Bool :=
  match cfg.dialect with
  | .postgresql => tryTagLocks tags
  | .sqlite => pure true

/-- `_tag_limited`. -/
def tagLimited (cfg : Config) (job : Job) (now : Time) : Sql Bool := do
  let limited := (job.tags.filter fun tag =>
    (cfg.tagConcurrencyLimits.lookup tag).isSome ||
      (cfg.tagRateLimits.lookup tag).isSome).insertionSort (· ≤ ·)
  if limited = [] then pure false
  else do
    if ← lockTags cfg limited then overLimit cfg now limited else pure true

/-! ## `claim_job` -/

inductive Decision where
  | ok
  | pending
  | expired
  | failed
  deriving DecidableEq, Repr

def isExpired (job : Job) (now : Time) : Bool :=
  job.ttl.any fun ttl => ttl ≠ 0 && seconds ttl < now - job.createdAt

/-- `_claim_decision`. -/
def claimDecision (cfg : Config) (job : Job) (now : Time) : Sql Decision := do
  if isExpired job now then do
    let _ ← failQueued cfg job
      s!"Job expired after {job.ttl.getD 0}s in queue (ttl)" "expired" now
    pure .expired
  else if dependencyIds job = [] then pure .ok
  else do
    let verdict ← judge (dependencyIds job)
    match verdict.state with
    | .failed => do
        let _ ← failQueued cfg job (dependenciesFailed verdict.failed)
          "dependency_failed" now
        pure .failed
    | .pending => pure .pending
    | .met => pure .ok

/-- How one round of the claim loop ends; `again` carries what the round
appends to the two lists of `claim_job`. -/
inductive Round where
  | stop (claimed : Option Claimed)
  | again (cursor : Option Cursor) (blocked : List (JobId × Time))
      (failed : List JobId)

/-- Delete the entry, lock the row and open the attempt. -/
def takeEntry (cfg : Config) (entry : Ready) (job : Job)
    (worker : Option WorkerId) (now : Time) : Sql Round := do
  let cursor := some (cursorOf entry)
  let deleted ← deleteEntryStmt cfg entry.slot entry.jobId
  if deleted ≠ 1 then do
    commit
    pure (.again cursor [] [])
  else
    match ← startAttempt cfg job worker now with
    | (some handle, _) => do
        commit
        pure (.stop (some (asRunning job handle)))
    | (none, .restore) => do
        rollback
        pure (.again cursor [] [])
    | (none, _) => do
        commit
        pure (.again cursor [] [])

/-- The candidate waits on dependencies: its entry is exchanged for blocked
rows. -/
def moveToBlocked (cfg : Config) (entry : Ready) (job : Job) (now : Time) :
    Sql (List (JobId × Time)) := do
  let rows := blockedRows job now
  if rows = [] then pure []
  else do
    let deleted ← deleteEntryStmt cfg entry.slot entry.jobId
    if deleted = 1 then do
      insertBlockedStmt cfg rows
      pure [(entry.jobId, entry.createdAt)]
    else pure []

/-- One candidate whose row is queued and idle. -/
def claimCandidate (cfg : Config) (entry : Ready) (job : Job)
    (worker : Option WorkerId) (now : Time) : Sql Round := do
  let cursor := some (cursorOf entry)
  match ← claimDecision cfg job now with
  | .expired => do
      let _ ← deleteReadyStmt cfg [entry.jobId]
      commit
      pure (.again cursor [] [entry.jobId])
  | .failed => do
      let _ ← deleteReadyStmt cfg [entry.jobId]
      commit
      pure (.again cursor [] [entry.jobId])
  | .pending => do
      let later ← currentTime
      let blocked ← moveToBlocked cfg entry job later
      commit
      pure (.again cursor blocked [])
  | .ok => do
      if ← tagLimited cfg job now then do
        commit
        pure (.again cursor [] [])
      else takeEntry cfg entry job worker now

/-- The live row under an entry; `byId` falls back to the id alone. -/
def jobOfEntry (entry : Ready) (byId : Bool) : Sql (Option Job) := do
  let found ← read fun db => (db.live.get entry.jobId).filter fun job =>
    job.createdAt = entry.createdAt
  match found with
  | some job => pure (some job)
  | none => if byId then read fun db => db.live.get entry.jobId else pure none

/-- One round of the loop that both claims share: the next entry, dropped when
it is stale. -/
def claimRound (cfg : Config) (queues : List String) (now : Time)
    (byId : Bool) (candidate : Ready → Job → Sql Round)
    (cursor : Option Cursor) : Sql Round := do
  match ← nextEntryStmt cfg queues now cursor with
  | none => do
      commit
      pure (.stop none)
  | some entry => do
      let found ← jobOfEntry entry byId
      match ← ifWaiting found with
      | none => do
          let _ ← deleteEntryStmt cfg entry.slot entry.jobId
          commit
          pure (.again (some (cursorOf entry)) [] [])
      | some job => candidate entry job

/-- The jobs a claim moved to the blocked set and the jobs it failed. -/
structure Trail where
  blocked : List (JobId × Time) := []
  failed : List JobId := []

/-- The loop; the trail survives an exception. -/
def claimLoop (round : Option Cursor → Sql Round) :
    Nat → Option Cursor → Trail →
      Prog Db Write Lock (Except Exc (Option Claimed) × Trail)
  | 0, _, _ => .halt
  | fuel + 1, cursor, trail =>
      (round cursor).run.bind fun result =>
        match result with
        | .error exception => .done (.error exception, trail)
        | .ok (.stop claimed) => .done (.ok claimed, trail)
        | .ok (.again next blocked failed) =>
            claimLoop round fuel next
              { blocked := trail.blocked ++ blocked
                failed := trail.failed ++ failed }

/-- The `finally` of `claim_job`. -/
def followUp (cfg : Config) (trail : Trail) : Sql Unit := do
  each (fun job => recheckBlockedQuietly cfg job.1 job.2) trail.blocked
  each (fun job => releaseDependentsQuietly cfg job) trail.failed

/-- `claim_job` with its `_claim_from_ready`. -/
def claimJob (cfg : Config) (queues : List String) (worker : String) :
    Sql (Option Claimed) := do
  let now ← currentTime
  ExceptT.mk ((claimLoop
    (claimRound cfg queues now true fun entry job =>
      claimCandidate cfg entry job (attemptWorkerId cfg worker) now)
    cfg.fuel none {}).bind fun outcome =>
      .rollback ((followUp cfg outcome.2).run.bind fun _ =>
        .done outcome.1))

/-- `claim_job_by_id`: the entries are locked first. -/
def lockEntries (cfg : Config) (job : JobId) : Sql Bool :=
  match cfg.dialect with
  | .postgresql => do
      let ofJob := fun (_ : Db) (entry : Ready) =>
        decide (entry.slot ∈ slots) && decide (entry.jobId = job)
      let held ← exec (fun snapshot current others =>
        selectSkipLocked Db.ready (fun entry => .ready entry.slot entry.jobId)
          ofJob id snapshot.ready.rows.length snapshot current others)
      if held = [] then do
        let exists_ ← read fun db => db.ready.rows.any (ofJob db)
        pure !exists_
      else pure true
  | .sqlite => pure true

def claimJobById (cfg : Config) (jobId : JobId) (worker : String) :
    Sql (Option Claimed) :=
  session do
    if ← lockEntries cfg jobId then do
      let found ← read fun db => db.live.get jobId
      match ← ifWaiting found with
      | some job => do
          let _ ← deleteReadyStmt cfg [jobId]
          let _ ← deleteBlockedStmt cfg [jobId]
          let now ← currentTime
          match ← startAttempt cfg job (attemptWorkerId cfg worker) now with
          | (some handle, _) => do
              commit
              pure (some (asRunning job handle))
          | (none, _) => do
              rollback
              pure none
      | none => do
          commit
          pure none
    else do
      commit
      pure none

/-- `atomic_claim_job`: the caller passes a row it read earlier and learns
whether it now carries the claim. -/
def atomicClaimJob (cfg : Config) (job : Job) (worker : Option WorkerId) :
    Sql (Option Claimed) :=
  session do
    let deleted ← deleteReadyStmt cfg [job.id]
    if deleted < 1 then do
      commit
      pure none
    else do
      let now ← currentTime
      match ← startAttempt cfg job worker now with
      | (some handle, _) => do
          commit
          pure (some (asRunning job handle))
      | (none, .restore) => do
          rollback
          pure none
      | (none, _) => do
          commit
          pure none

/-! ## The asynchronous backend -/

/-- `_registered_worker_id`. -/
def registeredWorkerId (cfg : Config) (worker : String) :
    Sql (Option WorkerId) :=
  match cfg.parseUuid worker with
  | none => pure none
  | some id => read fun db => (db.workers.get id).map (·.id)

/-- `aclaim_job`: no fallback to the id, no dependency and tag checks. -/
def aclaimJob (cfg : Config) (queues : List String) (worker : String) :
    Sql (Option Claimed) := do
  let now ← currentTime
  session do
    let owner ← registeredWorkerId cfg worker
    ExceptT.mk ((claimLoop
      (claimRound cfg queues now false fun entry job =>
        takeEntry cfg entry job owner now)
      cfg.fuel none {}).bind fun outcome => .done outcome.1)

/-- `amark_running`. -/
def amarkRunning (cfg : Config) (jobId : JobId) (worker : String) :
    Sql Unit := do
  let now ← currentTime
  session do
    match ← read fun db => (db.live.get jobId).filter fun job =>
        job.status = .queued with
    | none => pure ()
    | some job => do
        let _ ← deleteReadyStmt cfg [jobId]
        let _ ← deleteBlockedStmt cfg [jobId]
        let owner ← registeredWorkerId cfg worker
        match ← startAttempt cfg job owner now with
        | (some _, _) => commit
        | (none, _) => rollback

/-! ## `block_job` -/

def blockJob (cfg : Config) (job : Job) : Sql Bool := do
  let moved ← session do
    let now ← currentTime
    let rows := blockedRows job now
    if rows = [] then pure false
    else do
      let deleted ← deleteReadyStmt cfg [job.id]
      if deleted < 1 then do
        commit
        pure false
      else do
        insertBlockedStmt cfg rows
        commit
        pure true
  whenever moved (recheckBlockedQuietly cfg job.id job.createdAt)
  pure moved

end Sqlery.Standalone
