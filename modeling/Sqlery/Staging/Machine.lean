import Sqlery.ReadCommitted.Table
import Sqlery.Runs.Machine
import Sqlery.Staging.Promotion
import Sqlery.Standalone.Worker

/-!
# Creators, promoters and workers

Several processes create jobs, retry them and promote staged ones, each with
its own transaction.  A step is a statement that other processes can notice,
or the commit of what went before it; what a transaction has written and not
committed is part of its process's stage.  The promoters' advisory lock belongs
to the session and outlives its transactions.
-/

namespace Sqlery.Staging

open ReadCommitted

/-! ## Data -/

/-- A row of `sqlery_queued_job` or of the history. -/
structure LiveJob where
  id : JobId
  createdAt : Time
  row : Row

def LiveJob.key (job : LiveJob) : Time × JobId := (job.createdAt, job.id)

def LiveJob.jobName (job : LiveJob) : Option String :=
  match job.row.cell "job_name" with
  | .text name => some name
  | _ => none

def LiveJob.status (job : LiveJob) : Option String :=
  match job.row.cell "status" with
  | .text status => some status
  | _ => none

def LiveJob.parentJobId (job : LiveJob) : Option Int :=
  match job.row.cell "parent_job_id" with
  | .int parent => some parent
  | _ => none

def LiveJob.setStatus (job : LiveJob) (status : String) : LiveJob :=
  { job with row := job.row.map fun entry =>
      if entry.1 = "status" then (entry.1, .text status) else entry }

def entryKey (entry : Ready) : Nat × JobId := (entry.slot, entry.jobId)

structure Db where
  staged : Table ScheduledJob.id := .empty
  live : Table LiveJob.key := .empty
  ready : Table entryKey := .empty
  history : List LiveJob := []
  /-- The jobs with an open attempt. -/
  attempts : List JobId := []
  nextJob : JobId := 1
  /-- The slot that new entries go to. -/
  slot : Nat := 0
  clock : Time := 0

structure Config where
  partitionedPg : Bool
  scheduledJobThresholdDays : Int

/-- What the transaction of a promoter has done so far: the staging rows it has
locked and deleted, and the rows it has inserted. -/
structure Batch where
  picked : List ScheduledJob
  live : List LiveJob := []
  ready : List Ready := []

/-- A failed job in the memory of the worker that retries it. -/
structure FailedJob where
  id : JobId
  spec : Spec

inductive Stage where
  | ended (promoted : Option Nat)
  /-- `create_job` is about to look for the jobs of its name. -/
  | naming (spec : Spec)
  /-- It has found these and is about to delete them. -/
  | replacing (spec : Spec) (conflicting : List (Time × JobId))
  /-- Nothing of its name is in the way any more. -/
  | storing (spec : Spec)
  | inserting (spec : Spec) (createdAt : Time) (farFuture : Bool)
  /-- `_retry_job` is about to look for an earlier retry. -/
  | retrying (failed : FailedJob) (scheduledAt : Time)
  /-- `arequeue_retry` is about to commit its only transaction. -/
  | requeueing (failed : FailedJob) (scheduledAt : Time)
  /-- `promote_due_scheduled_jobs` is about to ask for the advisory lock;
  reading the defaults of the ORM will fail after so many fields. -/
  | acquiring (fields : Nat)
  | beginning (fields : Nat)
  | picking (fields : Nat) (start : Time)
  | preparing (fields : Nat) (start : Time) (picked : List ScheduledJob)
  | promoting (defaults : List (String × Value)) (start : Time) (slot : Nat)
      (rest : List ScheduledJob) (batch : Batch)
  /-- The transaction is over, the advisory lock is still held. -/
  | releasing (promoted : Option Nat)
  /-- `cancel_job` has found no live job that waits. -/
  | cancelling (job : JobId)
  /-- It has found a staged one and is about to delete it. -/
  | unstaging (job : JobId)

namespace Stage

def isEnded : Stage → Bool
  | .ended _ => true
  | _ => false

/-- Between taking the advisory lock and giving it back. -/
def inLock : Stage → Bool
  | .beginning _ => true
  | .picking _ _ => true
  | .preparing _ _ _ => true
  | .promoting _ _ _ _ _ => true
  | .releasing _ => true
  | _ => false

/-- The staging rows the transaction has locked. -/
def locked : Stage → List ScheduledJob
  | .preparing _ _ picked => picked
  | .promoting _ _ _ _ batch => batch.picked
  | _ => []

end Stage

/-- `stored`, `promoted` and `cancelled` record which ids were staged and which
of them were promoted or deleted, oldest first. -/
structure State (n : Nat) where
  db : Db := {}
  stage : Fin n → Stage := fun _ => .ended none
  advisory : Option (Fin n) := none
  stored : List JobId := []
  promoted : List JobId := []
  cancelled : List JobId := []

inductive Action (n : Nat) where
  | create (process : Fin n) (spec : Spec)
  | retry (process : Fin n) (failed : FailedJob) (scheduledAt : Time)
  | requeue (process : Fin n) (failed : FailedJob) (scheduledAt : Time)
  | promote (process : Fin n) (fields : Nat)
  | cancel (process : Fin n) (job : JobId)
  | step (process : Fin n)
  /-- The process's next statement raises. -/
  | fail (process : Fin n)
  | crash (process : Fin n)
  | claim (job : JobId)
  /-- A job ends: its row moves to history, or it stays as a failure that will
  be retried. -/
  | finish (job : JobId) (inPlace : Bool)
  | rotate (slot : Nat)
  | tick (elapsed : Nat)

/-! ## Rows of the tables -/

namespace Db

def insertAll {K V : Type} [DecidableEq K] {key : V → K} (table : Table key)
    (rows : List V) : Table key :=
  rows.foldl Table.insert table

/-- The deletion of live jobs, with their entries. -/
def discard (db : Db) (conflicting : List (Time × JobId)) : Db :=
  { db with
    live := db.live.retain fun job => job.key ∉ conflicting
    ready := db.ready.retain fun entry =>
      entry.jobId ∉ conflicting.map Prod.snd }

def addLive (db : Db) (job : LiveJob) (entry : Ready) : Db :=
  { db with
    live := db.live.insert job
    ready := db.ready.insert entry
    nextJob := db.nextJob + 1 }

def addStaged (db : Db) (row : ScheduledJob) : Db :=
  { db with staged := db.staged.insert row, nextJob := db.nextJob + 1 }

/-- The commit of a promoter. -/
def promote (db : Db) (batch : Batch) : Db :=
  { db with
    staged := db.staged.retain fun row =>
      row.id ∉ batch.picked.map ScheduledJob.id
    live := insertAll db.live batch.live
    ready := insertAll db.ready batch.ready }

end Db

/-! ## `create_job` -/

/-- `if job_name:`. -/
def Spec.name (spec : Spec) : Option String :=
  spec.jobName.filter fun name => name ≠ ""

def isFarFuture (cfg : Config) (spec : Spec) (now : Time) : Bool :=
  cfg.partitionedPg && spec.scheduledAt.any fun due =>
    now + seconds (cfg.scheduledJobThresholdDays * 86400) < due

def conflictingJobs (db : Db) (name : String) : List (Time × JobId) :=
  (db.live.rows.filter fun job => job.jobName = some name).map LiveJob.key

/-- The entry that the session hook writes beside a new row. -/
def newEntry (db : Db) (spec : Spec) (createdAt : Time) : Ready where
  slot := db.slot
  jobId := db.nextJob
  queueName := spec.queueName
  priority := spec.priority
  createdAt
  scheduledAt := spec.scheduledAt

def insertJob (db : Db) (spec : Spec) (createdAt : Time) : Option Db :=
  (directRow spec db.nextJob createdAt db.clock).map fun row =>
    db.addLive { id := db.nextJob, createdAt, row }
      (newEntry db spec createdAt)

def stageJob (db : Db) (spec : Spec) (createdAt : Time) : Option Db := do
  let due ← spec.scheduledAt
  let row := scheduledJob spec due db.nextJob createdAt
  if row.fits then some (db.addStaged row) else none

/-! ## Retries -/

/-- What `_retry_job` passes to `create_job` and `retry_job_fields` to the new
row, up to the backoff. -/
def retrySpec (failed : FailedJob) (retryBackoff : Rat)
    (scheduledAt : Time) : Spec :=
  let retryCount := failed.spec.retryCount.getD 0
  { taskPath := failed.spec.taskPath
    kwargs := failed.spec.kwargs
    queueName := failed.spec.queueName
    priority := failed.spec.priority
    scheduledAt := some scheduledAt
    jobName := failed.spec.name.map fun name =>
      Standalone.retryJobName name (retryCount + 1)
    maxRetries := failed.spec.maxRetries
    retryBackoff
    allowParallel := failed.spec.allowParallel
    timeoutSeconds := failed.spec.timeoutSeconds
    retryCount := some (retryCount + 1)
    parentJobId := some failed.id
    retryIntervals := failed.spec.retryIntervals
    dependencies := some (failed.spec.dependencies.getD [])
    tags := some (failed.spec.tags.getD [])
    metadata := failed.spec.metadata
    onSuccessPath := failed.spec.onSuccessPath
    onFailurePath := failed.spec.onFailurePath
    resultTtl := failed.spec.resultTtl
    failureTtl := failed.spec.failureTtl }

/-- `get_latest_retry` finds one. -/
def Db.hasRetry (db : Db) (failed : JobId) : Bool :=
  (db.live.rows ++ db.history).any fun job => job.parentJobId = some failed

/-- `arequeue_retry`: the new row, and the failed one moves to history as
`archived`. -/
def arequeueRetry (db : Db) (failed : FailedJob) (scheduledAt : Time) :
    Option Db :=
  let backoff := failed.spec.retryBackoff
  let spec := retrySpec failed (if backoff = 0 then 1 else backoff) scheduledAt
  (insertJob db spec db.clock).map fun after =>
    let superseded := db.live.rows.filter fun job =>
      job.id = failed.id && job.status = some "failed"
    { after.discard (superseded.map LiveJob.key) with
      history := superseded.map (LiveJob.setStatus · "archived") ++
        db.history }

/-! ## `promote_due_scheduled_jobs` -/

/-- `_PROMOTION_LOOKAHEAD_SECONDS`. -/
def promotionLookahead : Time := seconds 30

def isDue (start : Time) (row : ScheduledJob) : Bool :=
  row.scheduledAt ≤ start + promotionLookahead

/-- `FOR UPDATE SKIP LOCKED`: another transaction has locked the row. -/
def lockedByOther {n : Nat} (state : State n) (process : Fin n)
    (row : ScheduledJob) : Bool :=
  (List.finRange n).any fun other => other ≠ process &&
    ((state.stage other).locked.map ScheduledJob.id).contains row.id

/-- The rows of the statement that locks, deletes and returns what is due. -/
def dueRows {n : Nat} (state : State n) (process : Fin n) (start : Time) :
    List ScheduledJob :=
  state.db.staged.rows.filter fun row =>
    isDue start row && !lockedByOther state process row

def promotedEntry (slot : Nat) (row : ScheduledJob) : Ready where
  slot
  jobId := row.id
  queueName := row.queueName
  priority := row.priority
  createdAt := row.createdAt
  scheduledAt := some row.scheduledAt

/-- The two `INSERT`s of one staging row; `none` when the first one raises. -/
def promoteRow (db : Db) (defaults : List (String × Value)) (start : Time)
    (slot : Nat) (row : ScheduledJob) (batch : Batch) : Option Batch := do
  let built ← promotedRow jobColumns defaults start row
  let job : LiveJob :=
    { id := row.id, createdAt := row.createdAt, row := built }
  if (db.live.get job.key).isSome || batch.live.any (·.key = job.key) then none
  else some { batch with
    live := batch.live ++ [job]
    ready := batch.ready ++ [promotedEntry slot row] }

/-! ## Steps -/

namespace State

variable {n : Nat}

def goTo (state : State n) (process : Fin n) (stage : Stage) : State n :=
  { state with stage := Function.update state.stage process stage }

/-- A commit that inserts a job, or the exception it raises. -/
def inserted (state : State n) (process : Fin n) (result : Option Db) :
    State n :=
  match result with
  | none => state.goTo process (.ended none)
  | some db => { state.goTo process (.ended none) with db }

def staged (state : State n) (process : Fin n) (result : Option Db) :
    State n :=
  match result with
  | none => state.goTo process (.ended none)
  | some db =>
      { state.goTo process (.ended none) with
        db
        stored := state.stored ++ [state.db.nextJob] }

/-- The staged job is deleted, unless a promotion has moved it meanwhile; the
delete waits for one that has locked it. -/
def unstage (state : State n) (process : Fin n) (job : JobId) :
    Option (State n) :=
  match state.db.staged.get job with
  | none => some (state.goTo process (.ended none))
  | some row =>
      if lockedByOther state process row then none
      else some { state.goTo process (.ended none) with
        db := { state.db with staged := state.db.staged.erase job }
        cancelled := state.cancelled ++ [job] }

/-- One step of a process. -/
def advance (cfg : Config) (state : State n) (process : Fin n) :
    Option (State n) :=
  let db := state.db
  match state.stage process with
  | .ended _ => none
  | .naming spec => some (state.goTo process
      (match spec.name with
      | none => .storing spec
      | some name => .replacing spec (conflictingJobs db name)))
  | .replacing spec conflicting =>
      some { state.goTo process (.storing spec) with
        db := db.discard conflicting }
  | .storing spec => some (state.goTo process
      (.inserting spec db.clock (isFarFuture cfg spec db.clock)))
  | .inserting spec createdAt farFuture => some
      (if farFuture then state.staged process (stageJob db spec createdAt)
      else state.inserted process (insertJob db spec createdAt))
  | .retrying failed scheduledAt => some (state.goTo process
      (if db.hasRetry failed.id then .ended none
      else .naming (retrySpec failed failed.spec.retryBackoff scheduledAt)))
  | .requeueing failed scheduledAt => some
      (state.inserted process (arequeueRetry db failed scheduledAt))
  | .acquiring fields => some
      (if state.advisory.isSome then state.goTo process (.ended (some 0))
      else { state.goTo process (.beginning fields) with
        advisory := some process })
  | .beginning fields => some (state.goTo process (.picking fields db.clock))
  | .picking fields start => some (state.goTo process
      (match dueRows state process start with
      | [] => .releasing (some 0)
      | row :: rows => .preparing fields start (row :: rows)))
  | .preparing fields start picked => some (state.goTo process
      (.promoting ((ormColumnDefaults db.clock).take fields) start db.slot
        picked { picked }))
  | .promoting defaults start slot (row :: rest) batch =>
      some (state.goTo process
        (match promoteRow db defaults start slot row batch with
        | none => .releasing none
        | some more => .promoting defaults start slot rest more))
  | .promoting _ _ _ [] batch =>
      some { state.goTo process (.releasing (some batch.picked.length)) with
        db := db.promote batch
        promoted := state.promoted ++ batch.picked.map ScheduledJob.id }
  | .releasing promoted =>
      some { state.goTo process (.ended promoted) with advisory := none }
  | .cancelling job => some (state.goTo process
      (if (db.staged.get job).isSome then .unstaging job else .ended none))
  | .unstaging job => state.unstage process job

/-- The end of the call whose statement has raised: a promoter rolls back and
gives its lock back. -/
def raises (state : State n) (process : Fin n) : Option (State n) :=
  match state.stage process with
  | .ended _ => none
  | .beginning _ => some (state.goTo process (.releasing none))
  | .picking _ _ => some (state.goTo process (.releasing none))
  | .preparing _ _ _ => some (state.goTo process (.releasing none))
  | .promoting _ _ _ _ _ => some (state.goTo process (.releasing none))
  | .releasing _ =>
      some { state.goTo process (.ended none) with advisory := none }
  | _ => some (state.goTo process (.ended none))

/-- A session that is gone has lost its transaction and its locks. -/
def crash (state : State n) (process : Fin n) : State n :=
  { state.goTo process (.ended none) with
    advisory := state.advisory.filter (· ≠ process) }

end State

namespace Db

/-- A claim opens an attempt and takes the job's entries. -/
def claim (db : Db) (id : JobId) : Option Db :=
  let isWaiting := db.live.rows.any fun job =>
    job.id = id && job.status = some "queued"
  let isReady := db.ready.rows.any fun entry =>
    entry.jobId = id && entry.scheduledAt.all (· ≤ db.clock)
  if isWaiting && isReady && !db.attempts.contains id then
    some { db with
      ready := db.ready.retain fun entry => entry.jobId ≠ id
      attempts := id :: db.attempts }
  else none

/-- The end of a job, with whatever is left of its attempt and its entries. -/
def finish (db : Db) (id : JobId) (inPlace : Bool) : Db :=
  let done := db.live.rows.filter fun job => job.id = id
  let closed := { db with
    ready := db.ready.retain fun entry => entry.jobId ≠ id
    attempts := db.attempts.filter (· ≠ id) }
  if inPlace then
    { closed with
      live := (done.map fun job => job.setStatus "failed").foldl Table.set
        db.live }
  else
    { closed with
      live := db.live.retain fun job => job.id ≠ id
      history := done ++ db.history }

/-- New entries go to another slot. -/
def rotate (db : Db) (slot : Nat) : Db := { db with slot }

def tick (db : Db) (elapsed : Nat) : Db :=
  { db with clock := db.clock + elapsed }

end Db

/-- One action of the whole system. -/
def act (cfg : Config) {n : Nat} : Runs.Machine (State n) (Action n)
  | state, .create process spec =>
      if (state.stage process).isEnded then
        some (state.goTo process (.naming spec))
      else none
  | state, .retry process failed scheduledAt =>
      if (state.stage process).isEnded then
        some (state.goTo process (.retrying failed scheduledAt))
      else none
  | state, .requeue process failed scheduledAt =>
      if (state.stage process).isEnded then
        some (state.goTo process (.requeueing failed scheduledAt))
      else none
  | state, .promote process fields =>
      if (state.stage process).isEnded then
        some (state.goTo process (.acquiring fields))
      else none
  | state, .cancel process job =>
      if (state.stage process).isEnded then
        some (state.goTo process (.cancelling job))
      else none
  | state, .step process => state.advance cfg process
  | state, .fail process => state.raises process
  | state, .crash process => some (state.crash process)
  | state, .claim job => (state.db.claim job).map fun db => { state with db }
  | state, .finish job inPlace =>
      some { state with db := state.db.finish job inPlace }
  | state, .rotate slot => some { state with db := state.db.rotate slot }
  | state, .tick elapsed => some { state with db := state.db.tick elapsed }

end Sqlery.Staging
