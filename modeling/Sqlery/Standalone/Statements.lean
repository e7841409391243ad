import Sqlery.ReadCommitted.Script
import Sqlery.Standalone.Store

/-!
# SQL statements

The statement builders of `attempt_sql`, `history_sql` and `ready_sql`, and the
few the backend writes itself.  Under READ COMMITTED an `UPDATE`, a `DELETE` or
a locking `SELECT` finds its rows in the snapshot of the statement and checks
the `WHERE` clause again on the current version of each row it finds;
subqueries keep looking at the snapshot.  On SQLite a statement that writes
runs alone, so its snapshot is the current data, and a `SELECT` takes no lock.
-/

namespace Sqlery.Standalone

open ReadCommitted

open Script

abbrev Sql (α : Type) : Type 1 := Script Db Write Lock Exc α

abbrev Stmt (α : Type) : Type := Statement Db Write Lock α

/-- `datetime.now(UTC)`. -/
def currentTime : Sql Time := read Db.clock

/-! ## The shapes of statements -/

def basis (dialect : Dialect) (snapshot current : Db) : Db :=
  match dialect with
  | .postgresql => snapshot
  | .sqlite => current

def writerLock (dialect : Dialect) : List Lock :=
  match dialect with
  | .postgresql => []
  | .sqlite => [.writer]

section Shapes

variable {K V : Type} [DecidableEq K] {key : V → K}
variable (table : Db → Table key)

/-- The current version of every row the statement finds and still wants. -/
def targets (admits : Db → V → Bool) (snapshot current : Db) : List V :=
  (table snapshot).rows.filterMap fun old =>
    if admits snapshot old then
      ((table current).get (key old)).filter (admits snapshot)
    else none

/-- `UPDATE` and `DELETE`. -/
def dml (cfg : Config) (admits : Db → V → Bool) (write : V → Write) :
    Stmt (List V) :=
  fun snapshot current _ =>
    let rows := targets table admits (basis cfg.dialect snapshot current)
      current
    some {
      result := rows
      writes := rows.map write
      locks := writerLock cfg.dialect }

/-- `INSERT .. ON CONFLICT DO NOTHING`: a row under the same key that another
transaction is writing is waited for, one that is there is left alone. -/
def insertUnlessFound (cfg : Config) (lock : V → Lock)
    (insert found : V → Write) (rows : List V) : Stmt Unit :=
  fun _ current others =>
    if rows.any fun row => others.dirty (lockOf cfg.dialect (lock row)) then
      none
    else
      some {
        result := ()
        writes := rows.map fun row =>
          if ((table current).get (key row)).isSome then found row
          else insert row
        locks := writerLock cfg.dialect }

/-- `SELECT .. FOR UPDATE` (PostgreSQL). -/
def selectForUpdate (lock : V → Lock) (admits : Db → V → Bool) :
    Stmt (List V) :=
  fun snapshot current _ =>
    let rows := targets table admits snapshot current
    some { result := rows, locks := rows.map lock }

/-- `SELECT .. FOR UPDATE SKIP LOCKED` with a `LIMIT` (PostgreSQL); `order`
puts the rows found in the snapshot in the order of the statement. -/
def selectSkipLocked (lock : V → Lock) (admits : Db → V → Bool)
    (order : List V → List V) (limit : Nat) : Stmt (List V) :=
  fun snapshot current others =>
    let found := (order ((table snapshot).rows.filter (admits snapshot)))
    let rows := (found.filterMap fun old =>
      if others.busy (lock old) then none
      else ((table current).get (key old)).filter (admits snapshot)).take limit
    some { result := rows, locks := rows.map lock }

end Shapes

/-! ## `attempt_sql` -/

def closeWhere (cfg : Config) (admits : Attempt → Bool) (now : Time)
    (outcome : Outcome) : Sql Nat := do
  let closed ← exec (dml Db.attempts cfg
    (fun _ attempt => admits attempt && attempt.isOpen)
    fun attempt => .closeAttempt attempt.id attempt.jobId now outcome)
  pure closed.length

def closeExactStmt (cfg : Config) (handle : AttemptHandle) (outcome : Outcome)
    (now : Time) : Sql Nat :=
  closeWhere cfg handle.names now outcome

def closeUnfencedStmt (cfg : Config) (job : JobId) (outcome : Outcome)
    (now : Time) : Sql Nat :=
  closeWhere cfg (fun attempt => attempt.jobId = job) now
    (unfencedOutcome outcome)

/-- `new_attempt`, flushed: the id is drawn when the row is inserted. -/
def insertAttempt (cfg : Config) (job : JobId) (worker : Option WorkerId)
    (now : Time) : Sql AttemptHandle :=
  exec fun _ current _ =>
    let attempt : Attempt := {
      id := current.nextAttempt
      jobId := job
      token := cfg.newToken current.nextAttempt
      workerId := worker
      workerPid := some cfg.pid
      claimedAt := now }
    some {
      result := .ofAttempt attempt
      writes := [.insertAttempt attempt]
      locks := writerLock cfg.dialect
      atOnce := [.nextAttempt] }

def openAttemptsIn (job : JobId) : Sql (Option Attempt) :=
  read fun db => db.openAttemptOf job

/-! ## `history_sql` -/

/-- Columns a transition sets besides the status; `none` is not given. -/
structure Values where
  finishedAt : Option Time := none
  durationSeconds : Option (Option Int) := none
  output : Option String := none
  error : Option String := none
  traceback : Option String := none
  terminationReason : Option String := none
  runs : Option (List RunRecord) := none
  startedAt : Option (Option Time) := none
  workerId : Option (Option WorkerId) := none
  workerPid : Option (Option Nat) := none
  childPid : Option (Option Nat) := none
  deriving DecidableEq, Repr

/-- `row_columns`: what a finished job records from its attempt. -/
def Values.withAttempt (values : Values) : Option Attempt → Values
  | none => values
  | some attempt =>
      { values with
        startedAt := some (some attempt.claimedAt)
        workerId := some attempt.workerId
        workerPid := some attempt.workerPid
        childPid := some attempt.childPid }

/-- `UPDATE .. SET` of the given columns. -/
def Values.update (values : Values) (row : Job) : Job :=
  { row with
    finishedAt := values.finishedAt.map some |>.getD row.finishedAt
    durationSeconds := values.durationSeconds.getD row.durationSeconds
    output := values.output.getD row.output
    error := values.error.getD row.error
    traceback := values.traceback.getD row.traceback
    terminationReason :=
      values.terminationReason.getD row.terminationReason
    runs := values.runs.getD row.runs
    startedAt := values.startedAt.getD row.startedAt
    workerId := values.workerId.getD row.workerId
    workerPid := values.workerPid.getD row.workerPid
    childPid := values.childPid.getD row.childPid }

/-- The `WHERE` clause of a move. -/
structure MoveFence where
  jobId : JobId
  createdAt : Option Time := none
  expectedVersion : Option Nat := none
  requireStatus : Option (List Status) := none
  requireIdle : Bool := false
  deriving DecidableEq, Repr

def MoveFence.admits (fence : MoveFence) (db : Db) (row : Job) : Bool :=
  row.id = fence.jobId &&
    (!fence.requireIdle || !db.hasOpenAttempt row.id) &&
    fence.createdAt.all (fun created => row.createdAt = created) &&
    fence.expectedVersion.all (fun version => row.version = version) &&
    fence.requireStatus.all (fun statuses => row.status ∈ statuses)

/-- The history row of a move: the live row with the given columns, and with
what its newest attempt says where the caller says nothing. -/
def historyRow (db : Db) (row : Job) (status : Status) (values : Values)
    (now : Time) : Job :=
  let newest := newestWhere db fun attempt => attempt.jobId = row.id
  { values.update row with
    status
    version := row.version + 1
    finishedAt := some (values.finishedAt.getD (row.finishedAt.getD now))
    startedAt := values.startedAt.getD
      ((newest.map (·.claimedAt)).or row.startedAt)
    workerId := values.workerId.getD
      ((newest.bind (·.workerId)).or row.workerId)
    workerPid := values.workerPid.getD
      ((newest.bind (·.workerPid)).or row.workerPid)
    childPid := values.childPid.getD
      ((newest.bind (·.childPid)).or row.childPid) }

/-- `lock` of `move_statements`; SQLite needs none. -/
def lockForMove (cfg : Config) (fence : MoveFence) : Sql (List Job) :=
  match cfg.dialect with
  | .postgresql =>
      exec (selectForUpdate Db.live (fun row => .live row.id) fence.admits)
  | .sqlite => read fun db => db.live.rows.filter (fence.admits db)

/-- `ins` of `move_statements`: `INSERT .. SELECT`, whose `SELECT` reads the
snapshot. -/
def insertHistory (cfg : Config) (fence : MoveFence) (status : Status)
    (values : Values) (now : Time) : Sql (List Job) :=
  exec fun snapshot current _ =>
    let db := basis cfg.dialect snapshot current
    let rows := (db.live.rows.filter (fence.admits db)).map fun row =>
      historyRow db row status values now
    some {
      result := rows
      writes := rows.map .insertHistory
      locks := writerLock cfg.dialect }

def deleteLive (cfg : Config) (fence : MoveFence) : Sql Nat := do
  let rows ← exec (dml Db.live cfg fence.admits fun row => .deleteLive row.id)
  pure rows.length

def closeStragglersStmt (cfg : Config) (job : JobId) (status : Status)
    (now : Time) : Sql Nat :=
  closeWhere cfg (fun attempt => attempt.jobId = job) now
    (if status = .success then .success else .abandoned)

def updateLive (cfg : Config) (admits : Db → Job → Bool) (set : Job → Job) :
    Sql Nat := do
  let rows ← exec (dml Db.live cfg admits fun row => .setLive (set row))
  pure rows.length

/-! ## `ready_sql` -/

def slots : List Nat := [0, 1, 2]

def readyValues (job : Job) (slot : Nat) : Ready where
  slot := slot
  jobId := job.id
  queueName := job.queueName
  priority := job.priority
  createdAt := job.createdAt
  scheduledAt := job.scheduledAt

def insertReadyStmt (cfg : Config) (entries : List Ready) : Sql Unit :=
  exec (insertUnlessFound Db.ready cfg
    (fun entry => .ready entry.slot entry.jobId) .insertReady
    (fun entry => .foundReady entry.slot entry.jobId) entries)

def blockedRows (job : Job) (now : Time) : List Blocked :=
  (dependencyIds job).map fun dependency =>
    { jobId := job.id
      dependencyId := dependency
      createdAt := job.createdAt
      blockedAt := now }

def insertBlockedStmt (cfg : Config) (rows : List Blocked) : Sql Unit :=
  exec (insertUnlessFound Db.blocked cfg
    (fun row => .blocked row.jobId row.dependencyId) .insertBlocked
    (fun row => .foundBlocked row.jobId row.dependencyId) rows)

def deleteReadyWhere (cfg : Config) (admits : Ready → Bool) : Sql Nat := do
  let entries ← exec (dml Db.ready cfg (fun _ => admits)
    fun entry => .deleteReady entry.slot entry.jobId)
  pure entries.length

def deleteEntryStmt (cfg : Config) (slot : Nat) (job : JobId) : Sql Nat :=
  deleteReadyWhere cfg fun entry => entry.slot = slot && entry.jobId = job

def deleteReadyStmt (cfg : Config) (jobs : List JobId) : Sql Nat :=
  deleteReadyWhere cfg fun entry => entry.slot ∈ slots && entry.jobId ∈ jobs

def deleteBlockedStmt (cfg : Config) (jobs : List JobId) : Sql Nat := do
  let rows ← exec (dml Db.blocked cfg (fun _ row => row.jobId ∈ jobs)
    fun row => .deleteBlocked row.jobId row.dependencyId)
  pure rows.length

/-- `update_ready_stmt` with the editable columns of a job. -/
def updateReadyStmt (cfg : Config) (job : Job) : Sql Unit := do
  let _ ← exec (dml Db.ready cfg
    (fun _ entry => entry.slot ∈ slots && entry.jobId = job.id)
    fun entry => .setReady
      { entry with
        queueName := job.queueName
        priority := job.priority
        scheduledAt := job.scheduledAt })
  pure ()

/-- The claim order: priority, then age, then id. -/
def claimsBefore (left right : Ready) : Bool :=
  right.priority < left.priority ||
    (left.priority = right.priority &&
      (left.createdAt < right.createdAt ||
        (left.createdAt = right.createdAt && left.jobId ≤ right.jobId)))

def inClaimOrder (entries : List Ready) : List Ready :=
  entries.insertionSort fun left right => claimsBefore left right

abbrev Cursor := Int × Time × JobId

def cursorOf (entry : Ready) : Cursor :=
  (entry.priority, entry.createdAt, entry.jobId)

def afterCursor (cursor : Option Cursor) (entry : Ready) : Bool :=
  match cursor with
  | none => true
  | some (priority, createdAt, jobId) =>
      entry.priority < priority ||
        (entry.priority = priority &&
          (createdAt < entry.createdAt ||
            (entry.createdAt = createdAt && jobId < entry.jobId)))

def claimable (queues : List String) (now : Time) (cursor : Option Cursor)
    (entry : Ready) : Bool :=
  entry.queueName ∈ queues && entry.scheduledAt.all (· ≤ now) &&
    afterCursor cursor entry

def nextEntryStmt (cfg : Config) (queues : List String) (now : Time)
    (cursor : Option Cursor) : Sql (Option Ready) :=
  match cfg.dialect with
  | .postgresql => do
      let entries ← exec (selectSkipLocked Db.ready
        (fun entry => .ready entry.slot entry.jobId)
        (fun _ => claimable queues now cursor) inClaimOrder 1)
      pure entries.head?
  | .sqlite => read fun db =>
      (inClaimOrder
        (db.ready.rows.filter (claimable queues now cursor))).head?

end Sqlery.Standalone
