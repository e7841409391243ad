import Sqlery.Core.Decisions
import Sqlery.ReadCommitted.Rows

/-!
# Bulk terminal updates of the Django backend

`QueuedJobQuerySet._update_to_terminal` on PostgreSQL: it reads the rows its
filter matches, removes their entries, writes the final state by the filter and
moves the rows it read.  Each statement meets the data that another transaction
has left by then; rows the call has written or locked are out of its reach.
-/

namespace Sqlery.Django.BulkUpdate

open ReadCommitted

/-! ## Data -/

structure Db where
  live : Table Job.id
  history : List Job := []
  ready : List Ready := []
  blocked : List Blocked := []
  attempts : List Attempt := []
  clock : Time := 0

/-- The primary key of the live table. -/
abbrev Key := JobId × Time

def keyOf (row : Job) : Key := (row.id, row.createdAt)

/-- The live row with the key. -/
def Db.row (db : Db) (key : Key) : Option Job :=
  (db.live.get key.1).filter fun row => row.createdAt = key.2

/-- The filter of a queryset; it may look into other tables. -/
abbrev Filter := Db → Job → Bool

/-- The arguments of `update(status=..)`: `change` is the other columns. -/
structure Kwargs where
  status : Status
  terminal : isTerminal status = true
  terminationReason : Option String := none
  change : Job → Job := id

def Kwargs.assign (kwargs : Kwargs) (row : Job) : Job :=
  { kwargs.change row with
    id := row.id
    status := kwargs.status
    terminationReason :=
      kwargs.terminationReason.getD (kwargs.change row).terminationReason }

@[simp] theorem id_assign (kwargs : Kwargs) (row : Job) :
    (kwargs.assign row).id = row.id := rfl

/-! ## The other transaction -/

/-- What another transaction makes of the data.  Rows of `held` jobs are locked
against it, and a key of `known` that is gone stays gone. -/
def interfere (held : List JobId) (known : List Key) (change : Db → Db)
    (db : Db) : Db :=
  let next := change db
  { next with
    live := {
      rows := (db.live.rows.filter fun row => row.id ∈ held) ++
        next.live.rows.filter fun row => row.id ∉ held &&
          !(keyOf row ∈ known && (db.row (keyOf row)).isNone)
      nodup := by
        rw [List.map_append, List.nodup_append]
        refine ⟨db.live.nodup.sublist (List.filter_sublist.map _),
          next.live.nodup.sublist (List.filter_sublist.map _), ?_⟩
        intro job locked other free same
        obtain ⟨row, isLocked, rfl⟩ := List.mem_map.mp locked
        obtain ⟨moved, isFree, rfl⟩ := List.mem_map.mp free
        have inHeld := (List.mem_filter.mp isLocked).2
        have outside := (List.mem_filter.mp isFree).2
        simp only [decide_eq_true_eq] at inHeld
        simp only [Bool.and_eq_true, decide_eq_true_eq] at outside
        exact outside.1 (same ▸ inHeld) } }

/-- What the other transaction commits at one moment: the live rows it deletes,
those it inserts or updates, and what it does to the other tables. -/
structure Commit where
  deleted : List JobId := []
  written : Table Job.id := .empty
  elsewhere : Db → Db := id

def Commit.apply (commit : Commit) (db : Db) : Db :=
  { commit.elsewhere db with
    live := {
      rows := (db.live.rows.filter fun row =>
        row.id ∉ commit.deleted && row.id ∉ commit.written.rows.map Job.id) ++
          commit.written.rows
      nodup := by
        rw [List.map_append, List.nodup_append]
        refine ⟨db.live.nodup.sublist (List.filter_sublist.map _),
          commit.written.nodup, ?_⟩
        intro job kept other isWritten same
        obtain ⟨row, isKept, rfl⟩ := List.mem_map.mp kept
        have apart := (List.mem_filter.mp isKept).2
        simp only [Bool.and_eq_true, decide_eq_true_eq] at apart
        exact apart.2 (same ▸ isWritten) } }

/-- The commit leaves no live row under the key. -/
def Commit.takes (commit : Commit) (key : Key) : Prop :=
  match commit.written.get key.1 with
  | some row => row.createdAt ≠ key.2
  | none => key.1 ∈ commit.deleted

/-! ## The statements -/

/-- `ready.remove`. -/
def remove (ids : List JobId) (db : Db) : Db :=
  { db with
    ready := db.ready.filter fun entry => entry.jobId ∉ ids
    blocked := db.blocked.filter fun row => row.jobId ∉ ids }

/-- The jobs that lose an entry to `ready.remove`. -/
def removed (ids : List JobId) (db : Db) : List JobId :=
  ids.filter fun job => db.ready.any (fun entry => entry.jobId = job) ||
    db.blocked.any fun row => row.jobId = job

/-- The rows an `UPDATE` of the queryset matches. -/
def matched (filter : Filter) (snapshot current : Db) : List Job :=
  hits Db.live (filter snapshot) snapshot current

def updateRows (kwargs : Kwargs) (rows : List Job) (db : Db) : Db :=
  { db with
    live := rows.foldl (fun live row => live.set (kwargs.assign row)) db.live }

/-- `from_attempt_sql`: the newest attempt of the job. -/
def newestAttempt (db : Db) (job : JobId) : Option Attempt :=
  (db.attempts.filter fun attempt => attempt.jobId = job).foldl
    (fun best attempt => match best with
      | none => some attempt
      | some old => if old.id < attempt.id then some attempt else some old) none

/-- The history row that `move` inserts. -/
def finished (db : Db) (status : Status) (row : Job) : Job :=
  let attempt := newestAttempt db row.id
  { row with
    status := status
    version := row.version + 1
    finishedAt := row.finishedAt.or (some db.clock)
    startedAt := (attempt.map Attempt.claimedAt).or row.startedAt
    workerId := (attempt.bind Attempt.workerId).or row.workerId
    workerPid := (attempt.bind Attempt.workerPid).or row.workerPid
    childPid := (attempt.bind Attempt.childPid).or row.childPid }

/-- The two statements of `move` on a row that is locked. -/
def moveRow (status : Status) (row : Job) (db : Db) : Db :=
  { db with
    history := finished db status row :: db.history
    live := db.live.erase row.id }

def closeAttempts (status : Status) (job : JobId) (db : Db) : Db :=
  { db with
    attempts := db.attempts.map fun attempt =>
      if attempt.runs job then
        attempt.close db.clock
          (if status = .success then .success else .abandoned)
      else attempt }

/-! ## The call -/

/-- What one `move` of the call found. -/
structure Look where
  key : Key
  seen : Db

def Look.moves (look : Look) : Bool := (look.seen.row look.key).isSome

/-- `history.move_current`; `world n` commits before the statement `n`. -/
def moveCurrent (world : Nat → Db → Db) (known : List Key) (status : Status) :
    List Key → Nat → List JobId → Db → List Look × Db
  | [], _, _, db => ([], db)
  | key :: keys, statement, held, db =>
      let seen := interfere held known (world statement) db
      match seen.row key with
      | none =>
          let rest := moveCurrent world known status keys (statement + 1) held
            seen
          (⟨key, seen⟩ :: rest.1, rest.2)
      | some row =>
          let taken := interfere (key.1 :: held) known (world (statement + 1))
            (moveRow status row seen)
          let rest := moveCurrent world known status keys (statement + 2)
            (key.1 :: held) (closeAttempts status key.1 taken)
          (⟨key, seen⟩ :: rest.1, rest.2)

/-- The data the statements of a call have met, and those it leaves. -/
structure Trace where
  read : Db
  atRemove : Db
  snapshot : Db
  current : Db
  looks : List Look
  after : Db

/-- `_update_to_terminal`.  `world n` is what the other transaction commits
before the statement `n` of the call; the `UPDATE` may wait for it after its
snapshot. -/
def updateToTerminal (filter : Filter) (kwargs : Kwargs)
    (world : Nat → Db → Db) (start : Db) : Trace :=
  let keepLive := kwargs.terminationReason.any isRetryPending
  let read := interfere [] [] (world 0) start
  let rows := read.live.rows.filter (filter read)
  let known := rows.map keyOf
  let ids := rows.map Job.id
  let atRemove := interfere [] known (world 1) read
  let cleared := if rows.any (fun row => row.status = .queued) then
      remove ids atRemove
    else atRemove
  let snapshot := interfere [] known (world 2) cleared
  let current := interfere [] known (world 3) snapshot
  let updated := matched filter snapshot current
  let written := updateRows kwargs updated current
  let moves := if keepLive then ([], written)
    else moveCurrent world known kwargs.status known 4 (updated.map Job.id)
      written
  { read, atRemove, snapshot, current, looks := moves.1, after := moves.2 }

namespace Trace

variable (filter : Filter) (trace : Trace)

/-- The rows the call has read. -/
def rows : List Job := trace.read.live.rows.filter (filter trace.read)

/-- The rows its `UPDATE` has matched. -/
def updated : List Job := matched filter trace.snapshot trace.current

/-- The row count of the `UPDATE`, which the call returns. -/
def count : Nat := (trace.updated filter).length

/-- The jobs the call has moved into history, and whose attempts it has
closed. -/
def moved : List JobId :=
  (trace.looks.filter Look.moves).map fun look => look.key.1

/-- The jobs whose entries it has removed. -/
def dropped : List JobId :=
  if (trace.rows filter).any fun row => row.status = .queued then
    removed ((trace.rows filter).map Job.id) trace.atRemove
  else []

end Trace

end Sqlery.Django.BulkUpdate
