import Mathlib.Data.List.FinRange
import Mathlib.Logic.Function.Basic
import Sqlery.Partitioning.Bounds
import Sqlery.Runs.Machine

/-!
# Reclaiming live partitions

`reclaim_drained_live_partitions` beside the transactions that insert rows into
the live table and delete or move them.  A session that reads or writes a
partition holds a lock on it, and on the table, until its transaction ends;
`LOCK TABLE .. ACCESS EXCLUSIVE` and `DETACH` wait for all of them, or fail.
Rows are what the transactions change, partitions what the reclaim drops.
-/

namespace Sqlery.Partitioning.Reclaim

open Runs
open Calendar (Zone Stamp)

/-! ## The decision -/

/-- `now - grace`, on the clock of the session that has selected `now()`. -/
def cutoff (zone : Zone) (now grace : Int) : Int :=
  ((Stamp.load zone now).plus (-grace)).instant zone

/-- The outcomes of `decide_partition_reclaim`. -/
inductive Decision where
  | drop
  | checkRows
  | takeLock
  | skipDefault
  | skipGrace
  | skipHasRows
  | skipLocked
  deriving DecidableEq, Repr

def decidePartitionReclaim (zone : Zone) (upperBound : Option Int)
    (now grace : Int) (hasRows : Option Bool) (isDefault : Bool)
    (lockOk : Option Bool) : Decision :=
  if isDefault then .skipDefault
  else match upperBound with
    | none => .skipDefault
    | some upper =>
        if cutoff zone now grace ≤ upper then .skipGrace
        else match hasRows with
          | none => .checkRows
          | some true => .skipHasRows
          | some false =>
              match lockOk with
              | none => .takeLock
              | some false => .skipLocked
              | some true => .drop

/-- The grace period, from `grace_str` as it is parsed. -/
def graceOf (parsed : Option Int) : Int := max (parsed.getD hour) minute

/-! ## The catalog -/

structure Child where
  name : Text
  bound : Bound
  deriving DecidableEq, Repr

/-- `_list_partitions`. -/
def listPartitions (datetimes : Datetimes) (catalog : List Child) :
    List (Text × Option Int) :=
  catalog.map fun child =>
    (child.name, datetimes.parseUpperBound (datetimes.getExpr child.bound))

/-- The partitions with an upper bound, `sorted` by it. -/
def listed (datetimes : Datetimes) (catalog : List Child) : List (Text × Int) :=
  ((listPartitions datetimes catalog).filterMap fun partition =>
    partition.2.map fun upper => (partition.1, upper)).insertionSort
      fun first second => first.2 ≤ second.2

/-! ## Transactions -/

variable {Row : Type} [DecidableEq Row]

inductive Change (Row : Type) where
  | insert (name : Text) (row : Row)
  | delete (name : Text) (row : Row)
  deriving DecidableEq

def Change.name : Change Row → Text
  | .insert name _ => name
  | .delete name _ => name

/-- What the change makes of the rows of a partition. -/
def Change.apply (name : Text) (rows : List Row) : Change Row → List Row
  | .insert target row => if target = name then row :: rows else rows
  | .delete target row =>
      if target = name then rows.filter (· ≠ row) else rows

inductive Relation where
  | parent
  | child (name : Text)
  deriving DecidableEq

/-- A `DROP TABLE` that has been executed, and what it was decided by. -/
structure Drop where
  name : Text
  upper : Int
  now : Int
  grace : Int
  deriving DecidableEq

/-- An open transaction.  A lock in `shared` excludes ACCESS EXCLUSIVE alone. -/
structure Txn (Row : Type) where
  startedAt : Int
  changes : List (Change Row) := []
  shared : List Relation := []
  exclusive : List Relation := []
  drops : List Drop := []

def Txn.share (txn : Txn Row) (relation : Relation) : Txn Row :=
  { txn with shared := relation :: txn.shared }

def Txn.exclude (txn : Txn Row) (relation : Relation) : Txn Row :=
  { txn with exclusive := relation :: txn.exclusive }

def Txn.change (txn : Txn Row) (change : Change Row) : Txn Row :=
  { txn with changes := txn.changes ++ [change] }

def Txn.drop (txn : Txn Row) (drop : Drop) : Txn Row :=
  { txn with drops := drop :: txn.drops }

def Txn.holds (txn : Txn Row) (relation : Relation) : Bool :=
  relation ∈ txn.shared || relation ∈ txn.exclusive

def Txn.drops? (txn : Txn Row) (name : Text) : Bool :=
  txn.drops.any fun drop => drop.name = name

/-- The rows of a partition as the transaction sees them. -/
def Txn.view (txn : Txn Row) (name : Text) (rows : List Row) : List Row :=
  txn.changes.foldl (Change.apply name) rows

/-! ## Sessions -/

/-- A call of `reclaim_drained_live_partitions`, once it knows the time. -/
structure Call where
  now : Int
  grace : Int
  dropped : Nat := 0
  deriving DecidableEq

/-- The partition at hand, and the list behind it. -/
structure Item where
  name : Text
  upper : Int
  todo : List (Text × Int)
  deriving DecidableEq

/-- Where the call stands.  In the second block of `_try_reclaim_one`, `saved`
is the transaction the block goes back to when it fails. -/
inductive Stage (Row : Type) where
  | resting
  /-- The advisory lock has been acquired. -/
  | acquired (grace : Int)
  /-- No implicit transaction is open. -/
  | clear (grace : Int)
  | timed (call : Call)
  | each (call : Call) (todo : List (Text × Int))
  /-- At the first look, without a lock. -/
  | look (call : Call) (item : Item)
  /-- At `LOCK TABLE`. -/
  | take (call : Call) (item : Item)
  | recheck (call : Call) (item : Item) (saved : Option (Txn Row))
  | detach (call : Call) (item : Item) (saved : Option (Txn Row))
  | drop (call : Call) (item : Item) (saved : Option (Txn Row))
  /-- At the end of the block. -/
  | leave (call : Call) (item : Item) (saved : Option (Txn Row))

/-- The partition at hand, and the transaction that an error goes back to. -/
def Stage.backTo (txn : Option (Txn Row)) :
    Stage Row → Option (Call × Item × Option (Txn Row))
  | .look call item | .take call item => some (call, item, txn)
  | .recheck call item saved | .detach call item saved
  | .drop call item saved | .leave call item saved => some (call, item, saved)
  | .resting | .acquired _ | .clear _ | .timed _ | .each _ _ => none

structure Session (Row : Type) where
  datetimes : Datetimes
  autocommit : Bool
  /-- Its transactions are REPEATABLE READ. -/
  repeatable : Bool
  /-- The open transaction is a Django `atomic` block. -/
  atomic : Bool := false
  txn : Option (Txn Row) := none
  stage : Stage Row := .resting

/-- No transaction is open. -/
def Session.ended (session : Session Row) : Session Row :=
  { session with txn := none, atomic := false }

/-! ## The database -/

/-- What is committed, and the clock. -/
structure Database (Row : Type) where
  clock : Int
  catalog : List Child
  rows : Text → List Row

namespace Database

/-- The partition is there for the transaction. -/
def sees (database : Database Row) (txn : Option (Txn Row)) (name : Text) :
    Bool :=
  (database.catalog.any fun child => child.name = name) &&
    !txn.any (·.drops? name)

def view (database : Database Row) (txn : Option (Txn Row)) (name : Text) :
    List Row :=
  match txn with
  | some txn => txn.view name (database.rows name)
  | none => database.rows name

/-- The changes and the drops of a transaction become visible. -/
def apply (database : Database Row) (txn : Txn Row) : Database Row :=
  { database with
    catalog := database.catalog.filter fun child => !txn.drops? child.name
    rows := fun name =>
      if txn.drops? name then [] else txn.view name (database.rows name) }

def commit (database : Database Row) : Option (Txn Row) → Database Row
  | some txn => database.apply txn
  | none => database

def later (database : Database Row) (elapsed : Nat) : Database Row :=
  { database with clock := database.clock + elapsed }

end Database

structure State (Row : Type) (n : Nat) where
  database : Database Row
  /-- Who holds `ADVISORY_LOCK_RECLAIM`, once for each time it took it. -/
  advisory : List (Fin n) := []
  session : Fin n → Session Row

namespace State

variable {n : Nat}

def put (state : State Row n) (self : Fin n) (session : Session Row) :
    State Row n :=
  { state with session := Function.update state.session self session }

/-- The transaction of the session is committed. -/
def commit (state : State Row n) (self : Fin n) : State Row n :=
  { state with database := state.database.commit (state.session self).txn }

/-- Another session holds a lock on the relation. -/
def othersHold (state : State Row n) (self : Fin n) (relation : Relation) :
    Bool :=
  (List.finRange n).any fun other =>
    other ≠ self && (state.session other).txn.any (·.holds relation)

/-- Another session holds ACCESS EXCLUSIVE on the relation. -/
def othersExclude (state : State Row n) (self : Fin n) (relation : Relation) :
    Bool :=
  (List.finRange n).any fun other => other ≠ self &&
    (state.session other).txn.any fun txn => relation ∈ txn.exclusive

/-! ## The other transactions -/

/-- A row goes into a partition or out of it. -/
def change (state : State Row n) (self : Fin n) (change : Change Row) :
    Option (State Row n) :=
  let session := state.session self
  match session.stage, session.txn with
  | .resting, some txn =>
      let child := Relation.child change.name
      if state.database.sees session.txn change.name &&
          !state.othersExclude self .parent &&
          !state.othersExclude self child then
        some (state.put self { session with
          txn := some (((txn.share .parent).share child).change change) })
      else none
  | _, _ => none

/-! ## The call -/

/-- A statement begins a transaction, unless the connection commits each. -/
def entered (state : State Row n) (session : Session Row) :
    Option (Txn Row) :=
  match session.txn with
  | some txn => some txn
  | none =>
      if session.autocommit then none
      else some { startedAt := state.database.clock }

/-- `pg_try_advisory_lock`, and the return where another session holds it. -/
def call (state : State Row n) (self : Fin n) (grace : Option Int) :
    Option (State Row n) :=
  let session := state.session self
  match session.stage with
  | .resting =>
      let session := { session with txn := state.entered session }
      if state.advisory.all (· = self) then
        some ({ state with advisory := self :: state.advisory }.put self
          { session with stage := .acquired (graceOf grace) })
      else some (state.put self session)
  | _ => none

/-- `pg_advisory_unlock`, and the call returns. -/
def finish (state : State Row n) (self : Fin n) (session : Session Row) :
    State Row n :=
  { state with advisory := state.advisory.erase self }.put self
    { session with stage := .resting }

/-- `_end_implicit_transaction`. -/
def endImplicit (state : State Row n) (self : Fin n) (session : Session Row)
    (grace : Int) : State Row n :=
  if session.autocommit then
    state.put self { session with stage := .clear grace }
  else if session.atomic then state.finish self session
  else (state.commit self).put self
    { session.ended with stage := .clear grace }

/-- `SELECT now()`, the start of the transaction. -/
def readNow (state : State Row n) (self : Fin n) (session : Session Row)
    (grace : Int) : State Row n :=
  let txn := state.entered session
  let now := match txn with
    | some txn => txn.startedAt
    | none => state.database.clock
  state.put self { session with txn := txn, stage := .timed { now, grace } }

/-- The partitions as the session sees them, in their order. -/
def listAll (state : State Row n) (self : Fin n) (session : Session Row)
    (call : Call) : State Row n :=
  let catalog := state.database.catalog.filter fun child =>
    state.database.sees session.txn child.name
  state.put self
    { session with stage := .each call (listed session.datetimes catalog) }

/-- The head of the loop, and of `_try_reclaim_one`. -/
def nextItem (state : State Row n) (self : Fin n) (session : Session Row)
    (call : Call) : List (Text × Int) → State Row n
  | [] => state.finish self session
  | (name, upper) :: todo =>
      if cutoff session.datetimes.zone call.now call.grace ≤ upper then
        state.put self { session with stage := .each call todo }
      else if decidePartitionReclaim session.datetimes.zone (some upper)
          call.now call.grace none false none = .checkRows then
        state.put self { session with stage := .look call ⟨name, upper, todo⟩ }
      else state.put self { session with stage := .each call todo }

/-- The look without a lock; a partition that is gone is an error. -/
def firstLook (state : State Row n) (self : Fin n) (session : Session Row)
    (call : Call) (item : Item) : Option (State Row n) :=
  if !state.database.sees session.txn item.name then
    some (state.put self { session with stage := .each call item.todo })
  else if state.othersExclude self (.child item.name) then none
  else
    let hasRows := !(state.database.view session.txn item.name).isEmpty
    let looked : Session Row :=
      { session with txn := session.txn.map (·.share (.child item.name)) }
    if decidePartitionReclaim session.datetimes.zone (some item.upper)
        call.now call.grace (some hasRows) false none = .takeLock then
      some (state.put self { looked with stage := .take call item })
    else some (state.put self { looked with stage := .each call item.todo })

/-- `LOCK TABLE .. IN ACCESS EXCLUSIVE MODE NOWAIT`. -/
def takeLock (state : State Row n) (self : Fin n) (session : Session Row)
    (call : Call) (item : Item) : State Row n :=
  if session.txn.isSome && session.repeatable ||
      !state.database.sees session.txn item.name ||
      state.othersHold self (.child item.name) then
    state.put self { session with stage := .each call item.todo }
  else
    let txn := session.txn.getD { startedAt := state.database.clock }
    state.put self { session with
      txn := some (txn.exclude (.child item.name))
      stage := .recheck call item session.txn }

/-- The look under the lock. -/
def recheckRows (state : State Row n) (self : Fin n) (session : Session Row)
    (call : Call) (item : Item) (saved : Option (Txn Row)) : State Row n :=
  let hasRows := !(state.database.view session.txn item.name).isEmpty
  if decidePartitionReclaim session.datetimes.zone (some item.upper)
      call.now call.grace (some hasRows) false (some true) = .drop then
    state.put self { session with stage := .detach call item saved }
  else state.put self { session with stage := .leave call item saved }

/-- `ALTER TABLE .. DETACH PARTITION`, which needs the table for itself. -/
def detachPartition (state : State Row n) (self : Fin n)
    (session : Session Row) (call : Call) (item : Item)
    (saved : Option (Txn Row)) : Option (State Row n) :=
  if state.othersHold self .parent then none
  else some (state.put self { session with
    txn := session.txn.map (·.exclude .parent)
    stage := .drop call item saved })

/-- `DROP TABLE`. -/
def dropTable (state : State Row n) (self : Fin n) (session : Session Row)
    (call : Call) (item : Item) (saved : Option (Txn Row)) : State Row n :=
  state.put self { session with
    txn := session.txn.map
      (·.drop ⟨item.name, item.upper, call.now, call.grace⟩)
    stage := .leave { call with dropped := call.dropped + 1 } item saved }

/-- The end of the block: a commit, unless it is nested. -/
def leaveBlock (state : State Row n) (self : Fin n) (session : Session Row)
    (call : Call) (item : Item) (saved : Option (Txn Row)) : State Row n :=
  match saved with
  | some _ => state.put self { session with stage := .each call item.todo }
  | none => (state.commit self).put self
      { session.ended with stage := .each call item.todo }

/-- The next statement of the call; `none` while it waits. -/
def step (state : State Row n) (self : Fin n) : Option (State Row n) :=
  let session := state.session self
  match session.stage with
  | .resting => none
  | .acquired grace => some (state.endImplicit self session grace)
  | .clear grace => some (state.readNow self session grace)
  | .timed call => some (state.listAll self session call)
  | .each call todo => some (state.nextItem self session call todo)
  | .look call item => state.firstLook self session call item
  | .take call item => some (state.takeLock self session call item)
  | .recheck call item saved =>
      some (state.recheckRows self session call item saved)
  | .detach call item saved =>
      state.detachPartition self session call item saved
  | .drop call item saved => some (state.dropTable self session call item saved)
  | .leave call item saved =>
      some (state.leaveBlock self session call item saved)

/-- An error, of the server or raised beside it.  That of a block rolls the
block back, and the loop goes on if it is of the server; elsewhere the call
ends, and the transaction that is open cannot go on to unlock. -/
def fail (state : State Row n) (self : Fin n) (ofServer : Bool) :
    Option (State Row n) :=
  let session := state.session self
  match session.stage.backTo session.txn with
  | some (call, item, saved) =>
      if ofServer then
        some (state.put self
          { session with txn := saved, stage := .each call item.todo })
      else some (state.finish self { session with txn := saved })
  | none =>
      match session.stage with
      | .resting => none
      | .acquired _ => some (state.finish self session.ended)
      | _ =>
          if ofServer && (session.txn.isSome || !session.autocommit) then
            some (state.put self { session.ended with stage := .resting })
          else some (state.finish self session)

/-- The connection is lost. -/
def lose (state : State Row n) (self : Fin n) : State Row n :=
  { state with advisory := state.advisory.filter (· ≠ self) }.put self
    { (state.session self).ended with stage := .resting }

end State

/-! ## The machine -/

inductive Action (Row : Type) (n : Nat) where
  | tick (elapsed : Nat)
  | start (self : Fin n) (atomic : Bool)
  | change (self : Fin n) (change : Change Row)
  | commit (self : Fin n)
  | rollback (self : Fin n)
  | call (self : Fin n) (grace : Option Int)
  | step (self : Fin n)
  | fail (self : Fin n) (ofServer : Bool)
  | lose (self : Fin n)

def act {n : Nat} : Machine (State Row n) (Action Row n) := fun state action =>
  match action with
  | .tick elapsed =>
      some { state with database := state.database.later elapsed }
  | .start self atomic =>
      let session := state.session self
      match session.stage, session.txn with
      | .resting, none =>
          some (state.put self { session with
            atomic := atomic, txn :=
              some { startedAt := state.database.clock } })
      | _, _ => none
  | .change self change => state.change self change
  | .commit self =>
      let session := state.session self
      match session.stage, session.txn with
      | .resting, some _ =>
          some ((state.commit self).put self session.ended)
      | _, _ => none
  | .rollback self =>
      let session := state.session self
      match session.stage with
      | .resting => some (state.put self session.ended)
      | _ => none
  | .call self grace => state.call self grace
  | .step self => state.step self
  | .fail self ofServer => state.fail self ofServer
  | .lose self => some (state.lose self)

end Sqlery.Partitioning.Reclaim
