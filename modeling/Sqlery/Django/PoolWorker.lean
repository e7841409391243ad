import Sqlery.Django.BulkUpdate
import Sqlery.Standalone.Worker

/-!
# The pool worker of the Django backend

What `run_worker` does with one job: the claim, `TaskExecutor.execute_job` with
`mark_success` and `mark_failed`, the webhook and the retry, and after it
`claiming.release_job`.  The worker holds the job as an object in memory.

Before each statement other transactions commit what they like, as in a bulk
update.  What a completion does to rows of other jobs is left out.
-/

namespace Sqlery.Django.PoolWorker

open ReadCommitted
open BulkUpdate

/-! ## The worker and what surrounds it -/

inductive Kind where
  | timeout
  | doesNotExist
  | other
  /-- A `BaseException` that is no `Exception`. -/
  | fatal
  deriving DecidableEq

structure Exc where
  kind : Kind := .other
  message : String
  deriving DecidableEq

/-- `except Exception` catches it. -/
def Exc.isException (exc : Exc) : Bool := exc.kind ≠ .fatal

def Exc.ofCore : Sqlery.Exc → Exc
  | .fencing message => { message }
  | .runtime message => { message }
  | .attribute message => { message }

structure Webhook where
  url : String := ""
  events : List String := []
  status : String := ""
  retries : Int := 0
  maxRetries : Int := 3
  deriving DecidableEq

/-- The job object in the worker's memory; `shown` while it shows the running
job that its attempt makes it. -/
structure Held where
  row : Job
  attempt : Option AttemptHandle := none
  shown : Bool := false
  inHistory : Bool := false
  webhook : Webhook := {}

structure State where
  db : Db
  job : Held
  moment : Nat := 0

/-- How one POST of a webhook ends. -/
inductive Delivery where
  | sent
  | refused
  | broke (exc : Exc)

structure Setting where
  /-- What other transactions commit before the statement `n`. -/
  world : Nat → Db → Db := fun _ db => db
  /-- The worker's own row is there when the worker saves it. -/
  registered : Bool := true
  delivery : String → Delivery := fun _ => .sent
  policyAllowsRetry : Exc → Bool := fun _ => true
  /-- `calculate_retry_delay` and the shape the exception gives it. -/
  retryDelay : Job → Exc → Except Exc Time := fun _ _ => .ok 0
  /-- What `fail_dependent_jobs` raises. -/
  dependentsRaise : Option Exc := none
  traceback : Exc → String := fun exc => exc.message
  scheduledTaskName : Option String := none
  newId : JobId := 0
  slot : Nat := 0
  pid : Nat := 0

abbrev Script := EStateM Exc State

def heldJob : Script Held := fun state => .ok state.job state

def editJob (change : Held → Held) : Script Unit := fun state =>
  .ok () { state with job := change state.job }

def now : Script Time := fun state => .ok state.db.clock state

def store (db : Db) : Script Unit := fun state => .ok () { state with db }

/-- The data a statement meets. -/
def meets (setting : Setting) : Script Db := fun state =>
  let db := setting.world state.moment state.db
  .ok db { state with db, moment := state.moment + 1 }

/-- What is left of the data when a transaction is rolled back: the others have
committed all the same. -/
def replay (setting : Setting) (start count : Nat) (db : Db) : Db :=
  (List.range' start count).foldl (fun db moment => setting.world moment db) db

/-- `transaction.atomic()`: only the rows are rolled back, not the object. -/
def transaction {α : Type} (setting : Setting) (body : Script α) : Script α :=
  fun state =>
    match body state with
    | .ok result next => .ok result next
    | .error exc next => .error exc { next with
        db := replay setting state.moment
          (next.moment - state.moment) state.db }

/-- `except Exception`. -/
def catching {α : Type} (body : Script α) (handler : Exc → Script α) :
    Script α := fun state =>
  match body state with
  | .ok result next => .ok result next
  | .error exc next =>
      if exc.isException then handler exc next else .error exc next

/-! ## Attempts and claims -/

def openFor (db : Db) (job : JobId) : Bool :=
  db.attempts.any fun attempt => attempt.runs job

/-- `JobAttempt.open_for`. -/
def openAttempt (db : Db) (job : JobId) : Option Attempt :=
  newestAttempt { db with attempts := db.attempts.filter Attempt.isOpen } job

/-- `JobAttempt.close`. -/
def closeHandle (setting : Setting) (handle : AttemptHandle)
    (outcome : Outcome) : Script Unit := do
  let db ← meets setting
  let matching := fun attempt => handle.names attempt && attempt.isOpen
  store { db with
    attempts := db.attempts.map fun attempt =>
      if matching attempt then attempt.close db.clock outcome else attempt }
  match decideClose (db.attempts.filter matching).length handle with
  | .ok () => pure ()
  | .error exc => throw (Exc.ofCore exc)

def closeAll (outcome : Outcome) (job : JobId) (db : Db) : Db :=
  { db with
    attempts := db.attempts.map fun attempt =>
      if attempt.runs job then attempt.close db.clock outcome else attempt }

/-- `JobAttempt.close_open`. -/
def closeOpen (setting : Setting) (job : JobId) (outcome : Outcome) :
    Script Unit := do
  let db ← meets setting
  store (closeAll outcome job db)

def newAttempt (db : Db) (job : JobId) (worker : Option WorkerId) (pid : Nat)
    (token : String) : Attempt where
  id := (db.attempts.map Attempt.id).foldr max 0 + 1
  jobId := job
  token := token
  workerId := worker
  workerPid := some pid
  claimedAt := db.clock

/-- The object after `JobAttempt.open_new`. -/
def Held.shows (held : Held) (attempt : Attempt) : Held :=
  { held with
    row := overlayRunning held.row (some attempt)
    attempt := some (.ofAttempt attempt)
    shown := true }

inductive Judgement where
  | ok
  | keep
  | restore
  deriving DecidableEq

/-- `judge_claim`; `free` unless a writer has the row locked. -/
def judgeClaim (free : Bool) (job : Job) (db : Db) : Judgement :=
  match db.row (keyOf job) with
  | none => .keep
  | some row =>
      if free = false then .restore
      else if claimVerdict row.status row.version job.version
          (openFor db job.id) = .ok then .ok
      else if row.status ≠ .queued || openFor db job.id then .keep
      else .restore

def slots : List Nat := [0, 1, 2]

/-- The entries a claim deletes; `slot` is that of the entry the object was read
with. -/
def entryOf (slot : Option Nat) (job : JobId) (entry : Ready) : Bool :=
  entry.jobId = job &&
    match slot with
    | none => entry.slot ∈ slots
    | some slot => entry.slot = slot

/-- `atomic_claim_job`. -/
def atomicClaimJob (free : Bool) (slot : Option Nat) (worker : Option WorkerId)
    (pid : Nat) (token : String) (held : Held) (db : Db) :
    Option Held × Db :=
  if db.ready.any (entryOf slot held.row.id) then
    let cleared := { db with
      ready := db.ready.filter fun entry => !entryOf slot held.row.id entry }
    match judgeClaim free held.row cleared with
    | .restore => (none, db)
    | .keep => (none, cleared)
    | .ok =>
        let attempt := newAttempt cleared held.row.id worker pid token
        (some (held.shows attempt),
          { cleared with attempts := attempt :: cleared.attempts })
  else (none, db)

def entryFor (slot : Nat) (job : Job) : Ready where
  slot := slot
  jobId := job.id
  queueName := job.queueName
  priority := job.priority
  createdAt := job.createdAt
  scheduledAt := job.scheduledAt

/-- `bulk_create(.., ignore_conflicts=True)`. -/
def addEntry (entry : Ready) (db : Db) : Db :=
  if db.ready.any fun other =>
      other.slot = entry.slot && other.jobId = entry.jobId then db
  else { db with ready := entry :: db.ready }

/-- `DjangoBackend.release_job`: the job goes back to the queue. -/
def putBack (slot : Nat) (job : JobId) (db : Db) : Db :=
  match (db.live.get job).filter fun row => row.status = .queued with
  | none => db
  | some row =>
      if openFor db job then
        addEntry (entryFor slot row) (closeAll .abandoned job db)
      else db

/-! ## The object and its row -/

/-- `refresh_from_db`. -/
def refreshFromDb (setting : Setting) : Script Unit := do
  let held ← heldJob
  let db ← meets setting
  match db.row (keyOf held.row) with
  | some row =>
      editJob fun held => { held with row, shown := false }
      if row.status = .queued then do
        let later ← meets setting
        match openAttempt later row.id with
        | none => pure ()
        | some attempt => editJob fun held =>
            { held with
              row := overlayRunning held.row (some attempt), shown := true }
  | none =>
      match db.history.find? fun row => row.id = held.row.id with
      | some row => editJob fun held =>
          { held with row, shown := false, inHistory := true }
      | none => throw (Exc.mk .doesNotExist
          "QueuedJob matching query does not exist.")

def nothingSaved : Exc where
  message := "Save with update_fields did not affect any rows."

/-- `save(update_fields=..)` of the columns of the webhook. -/
def saveWebhook (setting : Setting) (change : Webhook → Webhook) :
    Script Unit := do
  editJob fun held => { held with webhook := change held.webhook }
  let held ← heldJob
  if held.inHistory then
    throw (Exc.mk .other (s!"job {held.row.id} is in history, which is " ++
      "insert-only; a finished job can not be saved again"))
  else do
    let db ← meets setting
    if (db.row (keyOf held.row)).isNone then
      throw nothingSaved

/-- What a finishing attempt leaves on the row. -/
structure Columns where
  startedAt : Option Time
  workerId : Option WorkerId
  workerPid : Option Nat
  childPid : Option Nat

def Columns.fill : Option Columns → Job → Job
  | none, row => row
  | some columns, row =>
      { row with
        startedAt := columns.startedAt
        workerId := columns.workerId
        workerPid := columns.workerPid
        childPid := columns.childPid }

/-- `_attempt_columns`. -/
def attemptColumns (setting : Setting) : Script (Option Columns) := do
  let held ← heldJob
  if held.shown then
    pure (some {
      startedAt := held.row.startedAt
      workerId := held.row.workerId
      workerPid := held.row.workerPid
      childPid := held.row.childPid })
  else do
    let db ← meets setting
    pure ((openAttempt db held.row.id).map fun attempt => {
      startedAt := some attempt.claimedAt
      workerId := attempt.workerId
      workerPid := attempt.workerPid
      childPid := attempt.childPid })

/-- The object with the times of its end and the record of the run. -/
def finishes (columns : Option Columns) (at_ : Time) (status : Status)
    (output error : String) (row : Job) : Job :=
  let startedAt := (columns.bind Columns.startedAt).or row.startedAt
  let timed := { row with
    startedAt := row.startedAt.or startedAt
    finishedAt := some at_
    durationSeconds := startedAt.map fun started => at_ - started }
  { timed with
    runs := timed.runs ++ [{
      attemptNumber := timed.retryCount
      startedAt := timed.startedAt
      finishedAt := timed.finishedAt
      status
      duration := timed.durationSeconds
      output := takeChars 2000 output
      error := takeChars 2000 error }] }

/-- `_close_attempt`. -/
def closeAttempt (setting : Setting) (outcome : Outcome) : Script Unit := do
  let held ← heldJob
  match held.attempt with
  | some handle => closeHandle setting handle outcome
  | none => closeOpen setting held.row.id (unfencedOutcome outcome)

/-- The row `history.move` inserts: `change` is its `values`. -/
def historyRow (db : Db) (status : Status) (change : Job → Job) (row : Job) :
    Job :=
  { change (finished db status row) with
    id := row.id
    createdAt := row.createdAt
    status := status
    version := row.version + 1 }

/-- `history.move`. -/
def move (setting : Setting) (key : Key) (status : Status)
    (change : Job → Job) (admits : Job → Bool) (closes : Bool) :
    Script Bool := do
  let db ← meets setting
  match (db.row key).filter admits with
  | none => pure false
  | some row => do
      let moved := { db with
        history := historyRow db status change row :: db.history
        live := db.live.erase row.id }
      store (if closes then closeAttempts status row.id moved else moved)
      pure true

/-- `update_in_place` of the row with the version the object has. -/
def updateInPlace (setting : Setting) (key : Key) (version : Nat)
    (status : Status) (change : Job → Job) : Script Bool := do
  let db ← meets setting
  match (db.row key).filter fun row => row.version = version with
  | none => pure false
  | some row => do
      store { db with
        live := db.live.set { change row with
          id := row.id
          createdAt := row.createdAt
          status := status
          version := row.version + 1 } }
      pure true

def versionConflict (job : JobId) : Exc where
  message := s!"Job {job} was modified by another process (version conflict)"

/-- `_record_final`. -/
def recordFinal (status : Status) (inHistory : Bool) (change : Job → Job) :
    Script Unit :=
  editJob fun held => { held with
    row := { change held.row with
      status := status, version := held.row.version + 1 }
    shown := false
    inHistory }

/-- The row leaves the live table or is marked in place, if it still has the
version the object has. -/
def endRow (setting : Setting) (held : Held) (status : Status)
    (change : Job → Job) (inPlace closes : Bool) : Script Unit := do
  let key := keyOf held.row
  let version := held.row.version
  let moved ←
    if inPlace then updateInPlace setting key version status change
    else
      move setting key status change (fun row => row.version = version) closes
  if moved then pure () else throw (versionConflict held.row.id)

/-! ## Webhooks -/

/-- `_awaits_webhook`. -/
def Held.awaitsWebhook (held : Held) : Bool := held.webhook.url ≠ ""

/-- `settle_finished`, with `history.settle`. -/
def settleFinished (setting : Setting) : Script Bool := do
  let held ← heldJob
  if isTerminal held.row.status then
    transaction setting (move setting (keyOf held.row) held.row.status id
      (fun row => row.status = held.row.status) true)
  else pure false

/-- `_settle`. -/
def settle (setting : Setting) : Script Unit :=
  catching (do let _ ← settleFinished setting) fun _ => pure ()

/-- The webhook was sent; a failure to save that counts as a failure to send. -/
def recordSent (setting : Setting) : Script Bool :=
  catching
    (do
      saveWebhook setting fun webhook => { webhook with status := "sent" }
      pure true)
    fun _ => pure false

/-- `send_webhook`. -/
def sendWebhook (setting : Setting) (event : String) : Script Bool := do
  let held ← heldJob
  if held.webhook.url = "" then pure true
  else if event ∉ held.webhook.events then pure true
  else
    match setting.delivery event with
    | .broke exc => throw exc
    | .refused => pure false
    | .sent => recordSent setting

/-- The first attempt at a delivery marks it as pending. -/
def markPending (setting : Setting) : Script Unit := do
  let held ← heldJob
  if held.webhook.retries = 0 then
    saveWebhook setting fun webhook => { webhook with status := "pending" }
  else pure ()

/-- What follows a delivery that failed. -/
def countFailure (setting : Setting) : Script Bool := do
  saveWebhook setting fun webhook =>
    { webhook with retries := webhook.retries + 1 }
  let held ← heldJob
  if held.webhook.retries < held.webhook.maxRetries then do
    saveWebhook setting fun webhook => { webhook with status := "pending" }
    pure false
  else do
    saveWebhook setting fun webhook => { webhook with status := "failed" }
    settle setting
    pure false

/-- `send_webhook_with_retry`. -/
def sendWebhookWithRetry (setting : Setting) (event : String) :
    Script Bool := do
  let held ← heldJob
  if held.webhook.url = "" then pure true
  else do
    markPending setting
    if ← sendWebhook setting event then do
      settle setting
      pure true
    else countFailure setting

/-- The end of a terminal transition. -/
def notify (setting : Setting) (event : String) : Script Unit := do
  let held ← heldJob
  if held.awaitsWebhook then do
    let _ ← sendWebhookWithRetry setting event
  else pure ()

/-! ## The terminal transitions of the object -/

/-- What `serialize_result` makes of a result; an awaitable stays one. -/
inductive Output where
  | text (output : String)
  | awaitable (typeName : String)

/-- The return value of a task; `json` is what `json.dumps` makes of it, or
`str` where that fails. -/
inductive Result where
  | none
  | str (text : String)
  | awaitable (typeName : String)
  | other (json : String)

def serializeResult : Result → Output
  | .none => .text ""
  | .str text => .text text
  | .awaitable typeName => .awaitable typeName
  | .other json => .text json

/-- `reject_unawaited_coroutine`, then `str`. -/
def awaited : Output → Except Exc String
  | .text output => .ok output
  | .awaitable typeName => .error {
      message := s!"Job result is an unawaited '{typeName}' -- the task " ++
        "body never ran. Await/run the coroutine before recording the result." }

/-- `mark_success`. -/
def markSuccess (setting : Setting) (output : Output) : Script Unit := do
  match awaited output with
  | .error exc => throw exc
  | .ok output => do
      let held ← heldJob
      let at_ ← now
      let columns ← attemptColumns setting
      editJob fun held => { held with
        row := finishes columns at_ .success output "" held.row }
      let ended ← heldJob
      let change := fun row => Columns.fill columns { row with
        finishedAt := ended.row.finishedAt
        durationSeconds := ended.row.durationSeconds
        output := output
        runs := ended.row.runs }
      transaction setting do
        closeAttempt setting .success
        endRow setting held .success change held.awaitsWebhook
          held.attempt.isNone
      recordFinal .success (!held.awaitsWebhook) change
      notify setting "success"

/-- A job that was waiting loses its entries. -/
def removeEntries (setting : Setting) (wasQueued : Bool) (job : JobId) :
    Script Unit :=
  if wasQueued then do
    let db ← meets setting
    store (remove [job] db)
  else pure ()

/-- `fail_dependent_jobs`, without the rows of the others. -/
def failDependentJobs (setting : Setting) : Script Unit :=
  match setting.dependentsRaise with
  | some exc => throw exc
  | none => pure ()

/-- `mark_failed` of a job that has run. -/
def markFailed (setting : Setting) (error traceback reason : String) :
    Script Unit := do
  let held ← heldJob
  let at_ ← now
  let columns ← attemptColumns setting
  let wasQueued := held.row.status = .queued && columns.isNone
  editJob fun held => { held with
    row := finishes columns at_ .failed "" error held.row }
  let ended ← heldJob
  let change := fun row => Columns.fill columns { row with
    finishedAt := ended.row.finishedAt
    durationSeconds := ended.row.durationSeconds
    error := error
    traceback := traceback
    terminationReason := reason
    runs := ended.row.runs }
  let inPlace := isRetryPending reason || held.awaitsWebhook
  transaction setting do
    removeEntries setting wasQueued held.row.id
    closeAttempt setting .failed
    endRow setting held .failed change inPlace true
  recordFinal .failed (!inPlace) change
  failDependentJobs setting
  notify setting "failure"

/-! ## Retries -/

/-- `settle_retry_pending`. -/
def settleRetryPending (setting : Setting) (job : JobId) : Script Unit := do
  let db ← meets setting
  match (db.live.get job).filter fun row => row.status = .failed with
  | none => pure ()
  | some row => do
      let _ ← transaction setting (move setting (keyOf row) .failed
        (fun moved => { moved with
          terminationReason :=
            settledTerminationReason row.terminationReason })
        (fun row => row.status = .failed) true)

/-- `_settle_retry_marker`. -/
def settleRetryMarker (setting : Setting) : Script Unit := do
  let held ← heldJob
  let reason := settledReason held.row.terminationReason
  if reason ≠ held.row.terminationReason then do
    settleRetryPending setting held.row.id
    editJob fun held => { held with
      row := { held.row with terminationReason := reason } }

/-- The row `_retry_job` creates. -/
def retryRow (newId : JobId) (createdAt delay : Time) (failed : Job) : Job where
  id := newId
  createdAt := createdAt
  taskPath := failed.taskPath
  kwargs := failed.kwargs
  queueName := failed.queueName
  priority := failed.priority
  scheduledTaskId := failed.scheduledTaskId
  retryCount := failed.retryCount + 1
  maxRetries := failed.maxRetries
  retryBackoff := failed.retryBackoff
  retryIntervals := failed.retryIntervals
  timeoutSeconds := failed.timeoutSeconds
  allowParallel := failed.allowParallel
  dependencies := failed.dependencies
  tags := failed.tags
  metadata := failed.metadata
  onSuccessPath := failed.onSuccessPath
  onFailurePath := failed.onFailurePath
  resultTtl := failed.resultTtl
  failureTtl := failed.failureTtl
  parentJobId := some failed.id
  scheduledAt := some (createdAt + delay)
  runs := failed.runs
  jobName := match failed.jobName with
    | none => none
    | some name =>
        if name = "" then none
        else some (Standalone.retryJobName name (failed.retryCount + 1))

/-- `_retry_job`. -/
def retryJob (setting : Setting) (exc : Exc) : Script Unit := do
  let held ← heldJob
  let db ← meets setting
  if (db.live.rows ++ db.history).any fun row =>
      row.parentJobId = some held.row.id then
    settleRetryMarker setting
  else
    match setting.retryDelay held.row exc with
    | .error exc => throw exc
    | .ok delay => do
        let db ← meets setting
        let retry := retryRow setting.newId db.clock delay held.row
        store (addEntry (entryFor setting.slot retry)
          { db with live := db.live.insert retry })
        settleRetryMarker setting

/-! ## `execute_job` -/

/-- How the execution of a task ends. -/
inductive Ended where
  | returned (result : Result)
  | raised (exc : Exc)

def timeoutText (job : Job) : String :=
  match job.timeoutSeconds with
  | some limit => toString limit
  | none => "None"

/-- The `except Exception` of `execute_job`. -/
def failTask (setting : Setting) (exc : Exc) : Script Unit := do
  let held ← heldJob
  let timedOut := exc.kind = .timeout
  let reason := if timedOut then s!"timeout_{timeoutText held.row}s"
    else "exception"
  let error := if timedOut then
      s!"Job timed out after {timeoutText held.row} seconds (SIGALRM)"
    else exc.message
  let willRetry := retryBudgetLeft held.row && setting.policyAllowsRetry exc
  markFailed setting error (setting.traceback exc)
    (if willRetry then pendingReason reason else reason)
  if willRetry then retryJob setting exc else pure ()

/-- `execute_job` from the end of the task on. -/
def settleTask (setting : Setting) (ended : Ended) : Script Unit :=
  catching
    (match ended with
      | .returned result => markSuccess setting (serializeResult result)
      | .raised exc => throw exc)
    (failTask setting)

/-- `can_execute_job`. -/
def canExecuteJob (setting : Setting) : Script Bool := do
  let held ← heldJob
  if held.row.allowParallel then pure true
  else do
    let db ← meets setting
    pure (!db.live.rows.any fun row =>
      row.status = .queued && openFor db row.id &&
        row.queueName = held.row.queueName && row.id ≠ held.row.id)

/-- `mark_running`. -/
def markRunning (setting : Setting) : Script Unit := do
  let held ← heldJob
  transaction setting do
    let db ← meets setting
    match (db.row (keyOf held.row)).filter fun row =>
        row.version = held.row.version && row.status = .queued with
    | none => throw (versionConflict held.row.id)
    | some row =>
        if openFor db row.id then throw (versionConflict held.row.id)
        else do
          let cleared := remove [row.id] db
          let attempt := newAttempt cleared row.id held.row.workerId setting.pid
            ""
          store { cleared with attempts := attempt :: cleared.attempts }
          editJob fun held => held.shows attempt
  refreshFromDb setting

/-- `execute_job`; a job that may not run now is handed back untouched. -/
def executeJob (setting : Setting) (ended : Ended) : Script Unit := do
  refreshFromDb setting
  let held ← heldJob
  if held.row.status = .running then settleTask setting ended
  else if ← canExecuteJob setting then do
    markRunning setting
    settleTask setting ended
  else pure ()

/-! ## `release_job` and the loop of `run_worker` -/

/-- `worker.save()`. -/
def saveWorker (setting : Setting) : Script Unit :=
  if setting.registered then pure ()
  else throw nothingSaved

/-- The arguments `release_job` gives to the `UPDATE`. -/
def releaseKwargs (status : Status) (terminal : isTerminal status = true)
    (finishedAt : Time) (startedAt : Option Time) (change : Job → Job) :
    Kwargs where
  status := status
  terminal := terminal
  change row := change { row with
    workerId := none
    finishedAt := some finishedAt
    durationSeconds := startedAt.map fun started => finishedAt - started
    version := row.version + 1 }

/-- The filter of `release_job`. -/
def atVersion (job : JobId) (version : Nat) : Filter := fun _ row =>
  row.id = job && row.version = version

/-- `QueuedJobQuerySet.update` with a terminal status. -/
def bulkUpdate (setting : Setting) (filter : Filter) (kwargs : Kwargs) :
    Script Nat := fun state =>
  let trace := updateToTerminal filter kwargs
    (fun statement => setting.world (state.moment + statement)) state.db
  .ok (trace.count filter)
    { state with
      db := trace.after
      moment := state.moment + 4 + 2 * (trace.rows filter).length }

/-- `refresh_from_db` under `except QueuedJob.DoesNotExist`. -/
def refreshIfThere (setting : Setting) : Script Unit := fun state =>
  match refreshFromDb setting state with
  | .ok () next => .ok () next
  | .error exc next =>
      if exc.kind = .doesNotExist then .ok () next else .error exc next

/-- `release_job` up to the worker's own row. -/
def releaseRow (setting : Setting) (status : Status)
    (terminal : isTerminal status = true) (change : Job → Job) :
    Script Unit := do
  let held ← heldJob
  let db ← meets setting
  let startedAt := match openAttempt db held.row.id with
    | some attempt => some attempt.claimedAt
    | none => held.row.startedAt
  closeOpen setting held.row.id
    (if status = .success then .success else .abandoned)
  let finishedAt ← now
  let _ ← bulkUpdate setting (atVersion held.row.id held.row.version)
    (releaseKwargs status terminal finishedAt startedAt change)
  refreshIfThere setting

/-- `claiming.release_job`; `change` is its keyword arguments. -/
def releaseJob (setting : Setting) (status : Status)
    (terminal : isTerminal status = true) (change : Job → Job) :
    Script Unit :=
  transaction setting do
    releaseRow setting status terminal change
    saveWorker setting

def lastSegment (path : String) : String :=
  String.ofList ((path.toList.reverse.takeWhile (· ≠ '.')).reverse)

def statusText : Status → String
  | .queued => "queued"
  | .running => "running"
  | .success => "success"
  | .failed => "failed"
  | .archived => "archived"
  | .shuttingDown => "shutting_down"

/-- `str(job)`. -/
def jobText (setting : Setting) (job : Job) : String :=
  let name := setting.scheduledTaskName.getD (lastSegment job.taskPath)
  s!"{name} [{job.queueName}] - {statusText job.status}"

/-- The keyword arguments of `release_job` after a success. -/
def endedWith (output : String) (row : Job) : Job := { row with output }

/-- The keyword arguments of `release_job` after an exception. -/
def failedWith (setting : Setting) (exc : Exc) (row : Job) : Job :=
  { row with error := exc.message, traceback := setting.traceback exc }

/-- The `try` of the loop; `executes` ends with the object as its result. -/
def releasing (setting : Setting) (executes : Script Unit) : Script Unit :=
  catching
    (do
      executes
      let held ← heldJob
      releaseJob setting .success rfl (endedWith (jobText setting held.row)))
    fun exc =>
      releaseJob setting .failed isTerminal_failed (failedWith setting exc)

/-- The loop's work on a job it has claimed. -/
def processJob (setting : Setting) (ended : Ended) : Script Unit :=
  releasing setting (executeJob setting ended)

/-- What is left of it when the task has ended. -/
def finishJob (setting : Setting) (ended : Ended) : Script Unit :=
  releasing setting (settleTask setting ended)

end Sqlery.Django.PoolWorker
