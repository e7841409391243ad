import Mathlib.Data.List.FinRange
import Sqlery.ReadCommitted.Drafts
import Sqlery.Rotation.Decisions
import Sqlery.Runs.Machine

/-!
# The ring of ready slots

The three partitions of the ready table, the sequence that names the current
one, and the sessions that write, claim and rotate.  A statement is one action;
the statement that moves entries is one action for each delete and each insert,
since an insert waits for a transaction that has the entry in the making.

The generation is a sequence: it is not rolled back, and is read as it is now.
-/

namespace Sqlery.Rotation

open ReadCommitted Runs

/-! ## Entries and transactions -/

/-- The slot and the job. -/
abbrev Key := Nat × Nat

/-- A row of `sqlery_job_ready`; the columns travel with it. -/
structure Entry (Columns : Type) where
  slot : Nat
  job : Nat
  columns : Columns
  deriving DecidableEq

variable {Columns : Type}

def Entry.key (entry : Entry Columns) : Key := (entry.slot, entry.job)

structure Txn (Columns : Type) where
  draft : Draft (Entry Columns) Key := {}
  /-- `pg_advisory_xact_lock_shared`. -/
  shared : Bool := false
  /-- `pg_try_advisory_xact_lock`, acquired. -/
  exclusive : Bool := false
  /-- The partitions that are read or written. -/
  slots : List Nat := []
  /-- The partitions locked in ACCESS EXCLUSIVE MODE. -/
  tables : List Nat := []
  truncated : List Nat := []
  /-- What `writer_slot` has returned. -/
  slot : Option Nat := none

/-! ## Rotators -/

structure Report where
  switched : Nat := 0
  drained : Nat := 0
  reclaimed : Nat := 0
  retry : String := ""
  deriving DecidableEq, Repr

def maxStepsPerTick : Nat := 50

/-- The loop of `run_rotation_tick`, with the rounds that are left. -/
structure Loop where
  config : RotationConfig
  left : Nat := maxStepsPerTick
  report : Report := {}

/-- The entries that are moved out of a slot.  The one in hand is deleted and
not inserted yet. -/
structure Moving (Columns : Type) where
  slot : Nat
  cur : Nat
  todo : List (Entry Columns)
  hand : Option (Entry Columns) := none
  moved : Nat
  /-- The state a reclaim was decided on; a drain has none. -/
  reclaims : Option RotationState := none

/-- Where a tick stands. -/
inductive At (Columns : Type) where
  | readState
  | switchLock (seen : RotationState)
  | switchDecide
  | switchNext (now : Int)
  | switchStamp (now : Int)
  | switchEnd
  | drainLock (slot : Nat)
  | drainRead (slot : Nat)
  | drainMove (slot cur : Nat)
  | drainEnd (moved : Nat)
  | reclaimLock (seen : RotationState) (slot : Nat)
  | reclaimRead (seen : RotationState) (slot : Nat)
  | reclaimTable (seen : RotationState) (slot cur : Nat)
  | reclaimMove (seen : RotationState) (slot cur : Nat)
  | moving (moving : Moving Columns)
  | reclaimTruncate (seen : RotationState) (slot moved : Nat)
  | reclaimStamp
  | reclaimEnd

inductive Stage (Columns : Type) where
  | resting
  | ticking (loop : Loop) (at_ : At Columns)

structure Session (Columns : Type) where
  txn : Option (Txn Columns) := none
  stage : Stage Columns := .resting
  /-- Of the last tick that has ended. -/
  report : Report := {}

def Session.current (session : Session Columns) : Txn Columns :=
  session.txn.getD {}

structure State (Columns : Type) (n : Nat) where
  rows : List (Entry Columns)
  /-- The files of the partitions hold pages. -/
  pages : Nat → Bool
  generation : Nat
  clock : Int
  switchedAt : Option Int := none
  reclaimedAt : Option Int := none
  session : Fin n → Session Columns

namespace State

variable {n : Nat}

def put (state : State Columns n) (self : Fin n) (session : Session Columns) :
    State Columns n :=
  { state with session := Function.update state.session self session }

def others (state : State Columns n) (self : Fin n)
    (holds : Txn Columns → Bool) : Bool :=
  (List.finRange n).any fun other =>
    other ≠ self && holds (state.session other).current

/-- Another session has ACCESS EXCLUSIVE on the partition. -/
def blocked (state : State Columns n) (self : Fin n) (slot : Nat) : Bool :=
  state.others self fun txn => slot ∈ txn.tables

/-- The draft of the session becomes the rows, and truncated files are empty. -/
def commit (state : State Columns n) (self : Fin n) : State Columns n :=
  let txn := (state.session self).current
  { state with
    rows := (txn.draft.view Entry.key state.rows).filter fun row =>
      row.slot ∉ txn.truncated
    pages := fun slot =>
      if slot ∈ txn.truncated then false else state.pages slot }

/-! ## Writers and claimers -/

/-- The session goes on with a transaction, outside a tick. -/
def writes (state : State Columns n) (self : Fin n) (txn : Txn Columns) :
    State Columns n :=
  state.put self { state.session self with txn := some txn, stage := .resting }

/-- `writer_slot`, to the shared lock. -/
def plan (state : State Columns n) (self : Fin n) (enabled present : Bool) :
    Option (State Columns n) :=
  let session := state.session self
  match session.stage with
  | .resting =>
      let plan := planWriter enabled true present
      if plan.fenced then
        if state.others self (·.exclusive) then none
        else some (state.writes self
          { session.current with shared := true, slot := none })
      else some (state.writes self { session.current with slot := plan.slot })
  | .ticking _ _ => none

/-- `writer_slot`, after the shared lock. -/
def readGeneration (state : State Columns n) (self : Fin n) :
    Option (State Columns n) :=
  let session := state.session self
  match session.stage with
  | .resting =>
      if session.current.shared && session.current.slot.isNone then
        some (state.writes self { session.current with
          slot := some (slotForGeneration state.generation) })
      else none
  | .ticking _ _ => none

/-- The insert of an entry ON CONFLICT DO NOTHING: it waits for a transaction
that has inserted or deleted the entry. -/
def insertEntry (state : State Columns n) (self : Fin n) (txn : Txn Columns)
    (entry : Entry Columns) : Option (Txn Columns) :=
  if state.blocked self entry.slot ||
      state.others self (·.draft.changes Entry.key entry.key) then none
  else if txn.draft.sees Entry.key state.rows entry.key then
    some { txn with slots := entry.slot :: txn.slots }
  else some { txn with
    draft := txn.draft.insert entry, slots := entry.slot :: txn.slots }

/-- The file of the partition has pages from then on. -/
def paged (state : State Columns n) (slot : Nat) : State Columns n :=
  { state with pages := fun other => other = slot || state.pages other }

def insert (state : State Columns n) (self : Fin n) (job : Nat)
    (columns : Columns) : Option (State Columns n) :=
  let session := state.session self
  match session.stage, session.current.slot with
  | .resting, some slot =>
      (state.insertEntry self session.current ⟨slot, job, columns⟩).map
        fun txn => (state.paged slot).writes self txn
  | _, _ => none

/-- A look at the table takes its partitions. -/
def scan (state : State Columns n) (self : Fin n) : Option (State Columns n) :=
  let session := state.session self
  match session.stage with
  | .resting =>
      if (List.range slotCount).any (state.blocked self) then none
      else some (state.writes self { session.current with
        slots := List.range slotCount ++ session.current.slots })
  | .ticking _ _ => none

/-- An entry that is there is deleted, or not touched if it is not: `none` while
another transaction has it. -/
def reach (state : State Columns n) (self : Fin n) (key : Key)
    (change : Draft (Entry Columns) Key → Draft (Entry Columns) Key) :
    Option (State Columns n) :=
  let session := state.session self
  match session.stage with
  | .resting =>
      let txn := session.current
      if state.blocked self key.1 ||
          state.others self (·.draft.touches Entry.key key) then none
      else if txn.draft.sees Entry.key state.rows key then
        some (state.writes self { txn with
          draft := change txn.draft, slots := key.1 :: txn.slots })
      else some (state.writes self { txn with slots := key.1 :: txn.slots })
  | .ticking _ _ => none

/-- `FOR UPDATE`; with SKIP LOCKED an entry that is not to be had is not
locked. -/
def lockEntry (state : State Columns n) (self : Fin n) (key : Key) :
    Option (State Columns n) :=
  state.reach self key (·.lock [key])

/-- `delete_entry_stmt`, and for all slots `delete_ready_stmt`. -/
def deleteEntry (state : State Columns n) (self : Fin n) (key : Key) :
    Option (State Columns n) :=
  state.reach self key (·.delete Entry.key key)

/-- `update_ready_stmt`, for an entry. -/
def updateEntry (state : State Columns n) (self : Fin n) (key : Key)
    (columns : Columns) : Option (State Columns n) :=
  state.reach self key fun draft =>
    (draft.delete Entry.key key).insert ⟨key.1, key.2, columns⟩

/-! ## Ticks -/

/-- The tick goes on, in the same transaction. -/
def ticks (state : State Columns n) (self : Fin n) (txn : Txn Columns)
    (loop : Loop) (at_ : At Columns) : State Columns n :=
  state.put self
    { state.session self with txn := some txn, stage := .ticking loop at_ }

/-- The next round of the loop. -/
def again (state : State Columns n) (self : Fin n) (loop : Loop) :
    State Columns n :=
  state.put self
    { state.session self with txn := none, stage := .ticking loop .readState }

/-- The tick ends, with a report. -/
def stop (state : State Columns n) (self : Fin n) (report : Report) :
    State Columns n :=
  state.put self { report }

/-- A tick that can go no further. -/
def retry (state : State Columns n) (self : Fin n) (report : Report)
    (reason : String) : State Columns n :=
  state.stop self { report with retry := reason }

/-- Some partition is locked by another session. -/
def tablesBlocked (state : State Columns n) (self : Fin n) : Bool :=
  (List.range slotCount).any (state.blocked self)

/-- `_read_state`. -/
def readState (state : State Columns n) (interval : Rat) : RotationState where
  generation := state.generation
  nonempty slot := state.rows.any fun row => row.slot = slot
  dirty slot :=
    (state.rows.any fun row => row.slot = slot) || state.pages slot
  now := state.clock
  lastSwitch := state.switchedAt
  interval := interval

/-- A round of the loop begins: the state is read, and the step decided. -/
def beginRound (state : State Columns n) (self : Fin n) (loop : Loop) :
    Option (State Columns n) :=
  match loop.left with
  | 0 => some (state.stop self loop.report)
  | left + 1 =>
      if state.tablesBlocked self then none
      else
        let seen := state.readState loop.config.interval
        let loop := { loop with left }
        match decideRotationStep seen with
        | .idle _ => some (state.stop self loop.report)
        | .drain slot => some (state.ticks self {} loop (.drainLock slot))
        | .reclaim slot =>
            some (state.ticks self {} loop (.reclaimLock seen slot))
        | .switch =>
            if 0 < loop.report.switched then some (state.stop self loop.report)
            else some (state.ticks self {} loop (.switchLock seen))
        | .retry _ reason => some (state.retry self loop.report reason)

/-! ### `switch` -/

/-- `TRY_LOCK_SQL`. -/
def tryLock (state : State Columns n) (self : Fin n) (loop : Loop)
    (seen : RotationState) : State Columns n :=
  if state.others self fun other => other.shared || other.exclusive then
    state.retry self loop.report
      (decideRotationStep { seen with switchLock := some false }).reason
  else
    let txn := (state.session self).current
    state.ticks self { txn with exclusive := true } loop .switchDecide

/-- The state is read again, under the lock. -/
def decideSwitch (state : State Columns n) (self : Fin n) (loop : Loop) :
    Option (State Columns n) :=
  if state.tablesBlocked self then none
  else
    let seen := { state.readState loop.config.interval with
      switchLock := some true }
    let txn := (state.session self).current
    if decideRotationStep seen = .switch then
      some (state.ticks self
        { txn with slots := List.range slotCount ++ txn.slots } loop
        (.switchNext seen.now))
    else some (state.retry self loop.report "state changed")

/-- `nextval`, that no rollback takes back. -/
def switchNext (state : State Columns n) (self : Fin n) (loop : Loop)
    (now : Int) : State Columns n :=
  { state with generation := state.generation + 1 }.ticks self
    (state.session self).current loop (.switchStamp now)

def switchStamp (state : State Columns n) (self : Fin n) (loop : Loop)
    (now : Int) : State Columns n :=
  { state with switchedAt := some now }.ticks self
    (state.session self).current loop .switchEnd

def switchEnd (state : State Columns n) (self : Fin n) (loop : Loop) :
    State Columns n :=
  (state.commit self).again self { loop with
    report := { loop.report with switched := loop.report.switched + 1 } }

/-! ### Moving entries -/

/-- `LOCK_SHARED_SQL`. -/
def lockShared (state : State Columns n) (self : Fin n) (loop : Loop)
    (at_ : At Columns) : Option (State Columns n) :=
  if state.others self (·.exclusive) then none
  else
    let txn := (state.session self).current
    some (state.ticks self { txn with shared := true } loop at_)

/-- The session goes on in the transaction that is open. -/
def goesOn (state : State Columns n) (self : Fin n) (loop : Loop)
    (at_ : At Columns) : State Columns n :=
  state.ticks self (state.session self).current loop at_

/-- The rows of the partition, as the session sees them. -/
def inSlot (state : State Columns n) (self : Fin n) (slot : Nat) :
    List (Entry Columns) :=
  ((state.session self).current.draft.view Entry.key state.rows).filter
    fun row => row.slot = slot

/-- What a drain can have: the entries that no other transaction has. -/
def available (state : State Columns n) (self : Fin n) (slot : Nat) :
    List (Entry Columns) :=
  (state.inSlot self slot).filter fun row =>
    !state.others self (·.draft.touches Entry.key row.key)

/-- The delete of `_move_sql`, and the insert, of one entry. -/
def move (state : State Columns n) (self : Fin n) (loop : Loop)
    (moving : Moving Columns) : Option (State Columns n) :=
  let txn := (state.session self).current
  match moving.hand, moving.todo with
  | some row, _ =>
      (state.insertEntry self txn { row with slot := moving.cur }).map
        fun txn => (state.paged moving.cur).ticks self txn loop
          (.moving { moving with hand := none })
  | none, row :: todo =>
      some (state.ticks self
        { txn with draft := txn.draft.delete Entry.key row.key } loop
        (.moving { moving with
          todo, hand := some row, moved := moving.moved + 1 }))
  | none, [] =>
      match moving.reclaims with
      | none => some (state.goesOn self loop (.drainEnd moving.moved))
      | some seen =>
          some (state.goesOn self loop
            (.reclaimTruncate seen moving.slot moving.moved))

/-! ### `drain` -/

def drainRead (state : State Columns n) (self : Fin n) (loop : Loop)
    (slot : Nat) : State Columns n :=
  let cur := slotForGeneration state.generation
  if slot = cur then state.goesOn self loop (.drainEnd 0)
  else state.goesOn self loop (.drainMove slot cur)

/-- `SELECT .. LIMIT .. FOR UPDATE SKIP LOCKED`, in no order. -/
def pick (state : State Columns n) (self : Fin n) (jobs : List Nat) :
    Option (State Columns n) :=
  match (state.session self).stage with
  | .ticking loop (.drainMove slot cur) =>
      let free := state.available self slot
      let batch := free.filter fun row => row.job ∈ jobs
      if state.blocked self slot || state.blocked self cur ||
          batch.length ≠ min loop.config.drainBatch free.length then none
      else
        let txn := (state.session self).current
        some (state.ticks self { txn with
            draft := txn.draft.lock (batch.map Entry.key)
            slots := slot :: cur :: txn.slots } loop
          (.moving { slot, cur, todo := batch, moved := 0 }))
  | _ => none

def drainEnd (state : State Columns n) (self : Fin n) (loop : Loop)
    (moved : Nat) : State Columns n :=
  let report :=
    { loop.report with drained := loop.report.drained + moved }
  if moved = 0 then
    (state.commit self).retry self report
      "drain: remaining entries are held by claimers"
  else (state.commit self).again self { loop with report }

/-! ### `reclaim` -/

/-- The tick ends with what the reclaim waits for. -/
def refused (state : State Columns n) (self : Fin n) (loop : Loop)
    (seen : RotationState) : State Columns n :=
  let reason :=
    (decideRotationStep { seen with reclaimLock := some false }).reason
  state.retry self loop.report (if reason = "" then "reclaim" else reason)

def reclaimRead (state : State Columns n) (self : Fin n) (loop : Loop)
    (seen : RotationState) (slot : Nat) : State Columns n :=
  let cur := slotForGeneration state.generation
  if slot = cur then (state.commit self).refused self loop seen
  else state.goesOn self loop (.reclaimTable seen slot cur)

/-- `LOCK TABLE .. IN ACCESS EXCLUSIVE MODE NOWAIT`. -/
def lockTable (state : State Columns n) (self : Fin n) (loop : Loop)
    (seen : RotationState) (slot cur : Nat) : State Columns n :=
  if state.others self fun other => slot ∈ other.slots ||
    slot ∈ other.tables then
    state.refused self loop seen
  else
    let txn := (state.session self).current
    state.ticks self { txn with tables := slot :: txn.tables } loop
      (.reclaimMove seen slot cur)

/-- What is left is moved, all of it. -/
def reclaimMove (state : State Columns n) (self : Fin n) (loop : Loop)
    (seen : RotationState) (slot cur : Nat) : Option (State Columns n) :=
  if state.blocked self cur then none
  else
    let txn := (state.session self).current
    some (state.ticks self { txn with slots := slot :: cur :: txn.slots } loop
      (.moving { slot, cur, todo := state.inSlot self slot, moved := 0,
                 reclaims := some seen }))

def truncate (state : State Columns n) (self : Fin n) (loop : Loop)
    (seen : RotationState) (slot moved : Nat) : State Columns n :=
  if max loop.config.drainBatch 1 * 10 < moved then
    (state.commit self).refused self loop seen
  else
    let txn := (state.session self).current
    state.ticks self { txn with truncated := slot :: txn.truncated } loop
      .reclaimStamp

def reclaimStamp (state : State Columns n) (self : Fin n) (loop : Loop) :
    State Columns n :=
  { state with reclaimedAt := some state.clock }.goesOn self loop .reclaimEnd

def reclaimEnd (state : State Columns n) (self : Fin n) (loop : Loop) :
    State Columns n :=
  (state.commit self).again self { loop with
    report := { loop.report with reclaimed := loop.report.reclaimed + 1 } }

/-- The next statement of a tick; `none` while it waits. -/
def step (state : State Columns n) (self : Fin n) : Option (State Columns n) :=
  match (state.session self).stage with
  | .resting => none
  | .ticking loop at_ =>
      match at_ with
      | .readState => state.beginRound self loop
      | .switchLock seen => some (state.tryLock self loop seen)
      | .switchDecide => state.decideSwitch self loop
      | .switchNext now => some (state.switchNext self loop now)
      | .switchStamp now => some (state.switchStamp self loop now)
      | .switchEnd => some (state.switchEnd self loop)
      | .drainLock slot => state.lockShared self loop (.drainRead slot)
      | .drainRead slot => some (state.drainRead self loop slot)
      | .drainMove _ _ => none
      | .moving moving => state.move self loop moving
      | .drainEnd moved => some (state.drainEnd self loop moved)
      | .reclaimLock seen slot =>
          state.lockShared self loop (.reclaimRead seen slot)
      | .reclaimRead seen slot => some (state.reclaimRead self loop seen slot)
      | .reclaimTable seen slot cur =>
          some (state.lockTable self loop seen slot cur)
      | .reclaimMove seen slot cur => state.reclaimMove self loop seen slot cur
      | .reclaimTruncate seen slot moved =>
          some (state.truncate self loop seen slot moved)
      | .reclaimStamp => some (state.reclaimStamp self loop)
      | .reclaimEnd => some (state.reclaimEnd self loop)

/-- `run_rotation_tick`, on a connection without a transaction. -/
def tick (state : State Columns n) (self : Fin n) (config : RotationConfig) :
    Option (State Columns n) :=
  let session := state.session self
  match session.stage, session.txn with
  | .resting, none =>
      some (state.put self
        { session with stage := .ticking { config } .readState })
  | _, _ => none

/-- A vacuum gives the pages of a partition without rows back, when it has the
partition for itself. -/
def vacuum (state : State Columns n) (slot : Nat) : Option (State Columns n) :=
  let used := (List.finRange n).any fun self =>
    let txn := (state.session self).current
    slot ∈ txn.slots || slot ∈ txn.tables
  if used || state.rows.any fun row => row.slot = slot then none
  else some { state with
    pages := fun other => if other = slot then false else state.pages other }

end State

/-! ## The machine -/

inductive RingAction (Columns : Type) (n : Nat) where
  | elapse (seconds : Nat)
  | plan (self : Fin n) (enabled present : Bool)
  | readGeneration (self : Fin n)
  | insert (self : Fin n) (job : Nat) (columns : Columns)
  | scan (self : Fin n)
  | lock (self : Fin n) (key : Key)
  | delete (self : Fin n) (key : Key)
  | update (self : Fin n) (key : Key) (columns : Columns)
  | commit (self : Fin n)
  | tick (self : Fin n) (config : RotationConfig)
  | pick (self : Fin n) (jobs : List Nat)
  | step (self : Fin n)
  /-- A rollback, or an error, or the session is lost. -/
  | fail (self : Fin n)
  | vacuum (slot : Nat)

/-- The session whose tick the action is part of. -/
def RingAction.ticks {n : Nat} : RingAction Columns n → Option (Fin n)
  | .tick self _ => some self
  | .pick self _ => some self
  | .step self => some self
  | _ => none

def act {n : Nat} : Machine (State Columns n) (RingAction Columns n) :=
  fun state action =>
  match action with
  | .elapse seconds => some { state with clock := state.clock + seconds }
  | .plan self enabled present => state.plan self enabled present
  | .readGeneration self => state.readGeneration self
  | .insert self job columns => state.insert self job columns
  | .scan self => state.scan self
  | .lock self key => state.lockEntry self key
  | .delete self key => state.deleteEntry self key
  | .update self key columns => state.updateEntry self key columns
  | .commit self =>
      match (state.session self).stage with
      | .resting => some ((state.commit self).put self
          { state.session self with txn := none })
      | .ticking _ _ => none
  | .tick self config => state.tick self config
  | .pick self jobs => state.pick self jobs
  | .step self => state.step self
  | .fail self => some (state.put self {})
  | .vacuum slot => state.vacuum slot

end Sqlery.Rotation
