import Sqlery.Rotation.Ring

/-!
# What holds while the ring rotates

The drafts of the sessions are lawful, their locks are compatible, and a tick
deletes in its transaction only entries of other slots than the current one, of
which it inserts copies in the current one.  When it truncates a partition,
every entry of it is one of these.
-/

namespace Sqlery.Rotation

open ReadCommitted

variable {Columns : Type} {n : Nat}

/-! ## Locks -/

/-- The locks of the one leave those of the other room. -/
structure Txn.Beside (txn other : Txn Columns) : Prop where
  advisory : txn.exclusive = true → other.shared = false ∧
    other.exclusive = false
  tables : ∀ slot ∈ txn.tables, slot ∉ other.slots ∧ slot ∉ other.tables

/-- What the transaction has touched, it has locked the partition of. -/
def Txn.Within (txn : Txn Columns) : Prop :=
  ∀ key : Key, txn.draft.touches Entry.key key = true →
    key.1 ∈ txn.slots ∨ key.1 ∈ txn.tables

/-! ## Ticks -/

/-- Each row of the slot is one that the transaction has deleted. -/
def Emptied (rows : List (Entry Columns)) (txn : Txn Columns) (slot : Nat) :
    Prop :=
  ∀ row ∈ rows, row.slot = slot → row.key ∈ txn.draft.deleted

/-- The transaction holds the generation, and the slot is not the current
one. -/
structure Off (generation : Nat) (txn : Txn Columns) (slot : Nat) : Prop where
  shared : txn.shared = true
  other : slot ≠ slotForGeneration generation

structure Moves (rows : List (Entry Columns)) (generation : Nat)
    (txn : Txn Columns) : Prop where
  deleted : ∀ key ∈ txn.draft.deleted, Off generation txn key.1
  inserted : ∀ row ∈ txn.draft.inserted,
    txn.shared = true ∧ row.slot = slotForGeneration generation
  copies : ∀ row ∈ txn.draft.inserted, ∃ old ∈ rows,
    old.key ∈ txn.draft.deleted ∧ old.job = row.job ∧ old.columns = row.columns
  truncated : ∀ slot ∈ txn.truncated, Off generation txn slot ∧
    slot ∈ txn.tables ∧ Emptied rows txn slot

structure MovingSound (rows : List (Entry Columns)) (generation : Nat)
    (txn : Txn Columns) (moving : Moving Columns) : Prop where
  off : Off generation txn moving.slot
  cur : moving.cur = slotForGeneration generation
  todo : ∀ row ∈ moving.todo, row ∈ rows ∧ row.slot = moving.slot ∧
    (row.key ∈ txn.draft.locked ∨ moving.slot ∈ txn.tables)
  hand : ∀ row, moving.hand = some row →
    row ∈ rows ∧ row.key ∈ txn.draft.deleted
  reclaims : moving.reclaims ≠ none → moving.slot ∈ txn.tables ∧
    ∀ row ∈ rows, row.slot = moving.slot →
      row.key ∈ txn.draft.deleted ∨ row ∈ moving.todo

def AtSound (rows : List (Entry Columns)) (generation : Nat)
    (txn : Txn Columns) : At Columns → Prop
  | .switchLock _ => txn.shared = false
  | .switchDecide | .switchNext _ | .switchStamp _ =>
      txn.exclusive = true ∧ txn.shared = false
  | .drainRead _ | .reclaimRead _ _ => txn.shared = true
  | .drainMove slot cur | .reclaimTable _ slot cur =>
      Off generation txn slot ∧ cur = slotForGeneration generation
  | .reclaimMove _ slot cur =>
      Off generation txn slot ∧ cur = slotForGeneration generation ∧
        slot ∈ txn.tables
  | .moving moving => MovingSound rows generation txn moving
  | .reclaimTruncate _ slot _ =>
      Off generation txn slot ∧ slot ∈ txn.tables ∧ Emptied rows txn slot
  | .readState | .switchEnd | .drainLock _ | .drainEnd _
  | .reclaimLock _ _ | .reclaimStamp | .reclaimEnd => True

def StageSound (rows : List (Entry Columns)) (generation : Nat)
    (txn : Txn Columns) : Stage Columns → Prop
  | .resting => txn.truncated = []
  | .ticking _ at_ =>
      Moves rows generation txn ∧ AtSound rows generation txn at_

/-! ## The invariant -/

def State.drafts (state : State Columns n) (self : Fin n) :
    Draft (Entry Columns) Key :=
  (state.session self).current.draft

structure State.Sound (state : State Columns n) : Prop where
  lawful : Lawful Entry.key state.rows state.drafts
  apart : ∀ one other, one ≠ other →
    (state.session one).current.Beside (state.session other).current
  within : ∀ self, (state.session self).current.Within
  stage : ∀ self, StageSound state.rows state.generation
    (state.session self).current (state.session self).stage

/-- The transaction may be that of the session, for all the others. -/
structure Fits (state : State Columns n) (holder : Fin n) (txn : Txn Columns) :
    Prop where
  lawful : Lawful Entry.key state.rows
    (Function.update state.drafts holder txn.draft)
  beside : ∀ other, other ≠ holder → txn.Beside (state.session other).current ∧
    (state.session other).current.Beside txn
  within : txn.Within

/-! ## What others leave as it is -/

section

variable {rows after : List (Entry Columns)} {generation later : Nat}
variable {txn : Txn Columns} {slot : Nat}

/-- The generation stays while the transaction holds it, and so do the rows that
it has touched and the partitions that it has locked. -/
structure Leaves (rows after : List (Entry Columns)) (generation later : Nat)
    (txn : Txn Columns) : Prop where
  generation : txn.shared = true →
    slotForGeneration later = slotForGeneration generation
  touched : ∀ row ∈ rows, txn.draft.touches Entry.key row.key = true →
    row ∈ after
  locked : ∀ row, row.slot ∈ txn.tables → (row ∈ rows ↔ row ∈ after)

theorem Off.keep (off : Off generation txn slot)
    (leaves : Leaves rows after generation later txn) :
    Off later txn slot where
  shared := off.shared
  other := by
    rw [leaves.generation off.shared]
    exact off.other

theorem Emptied.keep (emptied : Emptied rows txn slot)
    (leaves : Leaves rows after generation later txn)
    (locked : slot ∈ txn.tables) : Emptied after txn slot := by
  rintro row member rfl
  exact emptied row ((leaves.locked row locked).mpr member) rfl

theorem Moves.keep (moves : Moves rows generation txn)
    (leaves : Leaves rows after generation later txn) :
    Moves after later txn where
  deleted := fun key member => (moves.deleted key member).keep leaves
  inserted := by
    intro row member
    obtain ⟨shared, slot⟩ := moves.inserted row member
    rw [leaves.generation shared]
    exact ⟨shared, slot⟩
  copies := by
    intro row member
    obtain ⟨old, isRow, deleted, same⟩ := moves.copies row member
    have kept := leaves.touched old isRow (Draft.touches_of_deleted deleted)
    exact ⟨old, kept, deleted, same⟩
  truncated := by
    intro slot member
    obtain ⟨off, locked, emptied⟩ := moves.truncated slot member
    exact ⟨off.keep leaves, locked, emptied.keep leaves locked⟩

theorem MovingSound.keep {moving : Moving Columns}
    (sound : MovingSound rows generation txn moving)
    (leaves : Leaves rows after generation later txn) :
    MovingSound after later txn moving where
  off := sound.off.keep leaves
  cur := by
    rw [leaves.generation sound.off.shared]
    exact sound.cur
  todo := by
    intro row member
    obtain ⟨isRow, slot, held⟩ := sound.todo row member
    refine ⟨?_, slot, held⟩
    rcases held with locked | locked
    · exact leaves.touched row isRow (Draft.touches_of_locked locked)
    · rw [← slot] at locked
      exact (leaves.locked row locked).mp isRow
  hand := by
    intro row found
    obtain ⟨isRow, deleted⟩ := sound.hand row found
    exact ⟨leaves.touched row isRow (Draft.touches_of_deleted deleted), deleted⟩
  reclaims := by
    intro reclaims
    obtain ⟨locked, left⟩ := sound.reclaims reclaims
    refine ⟨locked, ?_⟩
    intro row member slot
    rw [← slot] at locked
    exact left row ((leaves.locked row locked).mpr member) slot

theorem StageSound.keep {stage : Stage Columns}
    (sound : StageSound rows generation txn stage)
    (leaves : Leaves rows after generation later txn) :
    StageSound after later txn stage := by
  cases stage with
  | resting => exact sound
  | ticking loop at_ =>
      obtain ⟨moves, stands⟩ := sound
      refine ⟨moves.keep leaves, ?_⟩
      cases at_ with
      | drainMove slot cur =>
          obtain ⟨off, same⟩ := stands
          exact ⟨off.keep leaves, by
            rw [leaves.generation off.shared]; exact same⟩
      | reclaimTable seen slot cur =>
          obtain ⟨off, same⟩ := stands
          exact ⟨off.keep leaves, by
            rw [leaves.generation off.shared]; exact same⟩
      | reclaimMove seen slot cur =>
          obtain ⟨off, same, locked⟩ := stands
          exact ⟨off.keep leaves,
            by rw [leaves.generation off.shared]; exact same, locked⟩
      | moving moving => exact MovingSound.keep stands leaves
      | reclaimTruncate seen slot moved =>
          obtain ⟨off, locked, emptied⟩ := stands
          exact ⟨off.keep leaves, locked, emptied.keep leaves locked⟩
      | _ => exact stands

/-- Locks are taken, and the draft stays as it is. -/
theorem Moves.congr {other : Txn Columns} (moves : Moves rows generation txn)
    (draft : other.draft = txn.draft)
    (shared : txn.shared = true → other.shared = true)
    (tables : txn.tables ⊆ other.tables)
    (truncated : other.truncated = txn.truncated) :
    Moves rows generation other where
  deleted := by
    intro key member
    rw [draft] at member
    obtain ⟨held, different⟩ := moves.deleted key member
    exact ⟨shared held, different⟩
  inserted := by
    intro row member
    rw [draft] at member
    exact (moves.inserted row member).imp_left shared
  copies := by
    rw [draft]
    exact moves.copies
  truncated := by
    intro slot member
    rw [truncated] at member
    obtain ⟨⟨held, different⟩, locked, emptied⟩ := moves.truncated slot member
    refine ⟨⟨shared held, different⟩, tables locked, ?_⟩
    intro row isRow same
    rw [draft]
    exact emptied row isRow same

end

/-! ## Sessions -/

section

variable {state : State Columns n} {self other : Fin n}
variable {session : Session Columns} {txn : Txn Columns}

theorem not_others {holds : Txn Columns → Bool}
    (free : state.others self holds = false) (different : other ≠ self) :
    holds (state.session other).current = false := by
  have alone := List.any_eq_false.mp free other (List.mem_finRange other)
  simpa [different] using alone

theorem not_blocked {slot : Nat} (free : state.blocked self slot = false)
    (different : other ≠ self) :
    slot ∉ (state.session other).current.tables := by
  have alone := not_others free different
  simpa using alone

@[simp] theorem session_put_self :
    (state.put self session).session self = session := by
  simp [State.put]

theorem session_put_of_ne (different : other ≠ self) :
    (state.put self session).session other = state.session other := by
  simp [State.put, Function.update_of_ne different]

theorem drafts_put : (state.put self session).drafts =
    Function.update state.drafts self session.current.draft := by
  funext other
  by_cases isSelf : other = self
  · subst isSelf
    simp [State.drafts]
  · rw [Function.update_of_ne isSelf]
    simp [State.drafts, session_put_of_ne isSelf]

/-! ## Transactions that fit -/

theorem State.Sound.fits (sound : state.Sound) (self : Fin n) :
    Fits state self (state.session self).current where
  lawful := by
    have same : Function.update state.drafts self
        (state.session self).current.draft = state.drafts :=
      Function.update_eq_self self state.drafts
    rw [same]
    exact sound.lawful
  beside := fun other different =>
    ⟨sound.apart self other different.symm, sound.apart other self different⟩
  within := sound.within self

theorem State.Sound.fitsEmpty (sound : state.Sound) (self : Fin n) :
    Fits state self {} where
  lawful := sound.lawful.rollback self
  beside := by
    intro other _
    refine ⟨⟨fun excluded => ?_, fun slot member => ?_⟩,
      ⟨fun _ => ⟨rfl, rfl⟩, fun slot _ => ⟨?_, ?_⟩⟩⟩
    · cases excluded
    · cases member
    · exact List.not_mem_nil
    · exact List.not_mem_nil
  within := by
    intro key touched
    rw [Draft.touches_empty] at touched
    cases touched

/-- What is not locked or drafted is not looked at. -/
theorem Fits.congr {made : Txn Columns} (fits : Fits state self txn)
    (draft : made.draft = txn.draft) (shared : made.shared = txn.shared)
    (exclusive : made.exclusive = txn.exclusive)
    (slots : made.slots = txn.slots)
    (tables : made.tables = txn.tables) : Fits state self made where
  lawful := by
    rw [draft]
    exact fits.lawful
  beside := by
    intro other different
    obtain ⟨mine, theirs⟩ := fits.beside other different
    refine ⟨⟨?_, ?_⟩, ⟨?_, ?_⟩⟩
    · rw [exclusive]
      exact mine.advisory
    · rw [tables]
      exact mine.tables
    · rw [shared, exclusive]
      exact theirs.advisory
    · rw [slots, tables]
      exact theirs.tables
  within := by
    unfold Txn.Within
    rw [draft, slots, tables]
    exact fits.within

theorem Fits.share (fits : Fits state self txn)
    (free : state.others self (·.exclusive) = false) (slot : Option Nat) :
    Fits state self { txn with shared := true, slot } where
  lawful := fits.lawful
  beside := by
    intro other different
    obtain ⟨mine, theirs⟩ := fits.beside other different
    refine ⟨⟨mine.advisory, mine.tables⟩, ⟨fun excluded => ?_, theirs.tables⟩⟩
    have alone := not_others free different
    rw [excluded] at alone
    cases alone
  within := fits.within

theorem Fits.exclude (fits : Fits state self txn)
    (free : (state.others self fun other =>
      other.shared || other.exclusive) = false) :
    Fits state self { txn with exclusive := true } where
  lawful := fits.lawful
  beside := by
    intro other different
    obtain ⟨mine, theirs⟩ := fits.beside other different
    have alone := not_others free different
    simp only [Bool.or_eq_false_iff] at alone
    refine ⟨⟨fun _ => alone, mine.tables⟩, ⟨fun excluded => ?_, theirs.tables⟩⟩
    rw [alone.2] at excluded
    cases excluded
  within := fits.within

/-- Partitions are taken that no other session has locked. -/
theorem Fits.use (fits : Fits state self txn) (slots : List Nat)
    (free : ∀ slot ∈ slots, state.blocked self slot = false) :
    Fits state self { txn with slots := slots ++ txn.slots } where
  lawful := fits.lawful
  beside := by
    intro other different
    obtain ⟨mine, theirs⟩ := fits.beside other different
    refine ⟨⟨mine.advisory, mine.tables⟩,
      ⟨theirs.advisory, fun slot locked => ⟨fun used => ?_, ?_⟩⟩⟩
    · rcases List.mem_append.mp used with used | used
      · exact not_blocked (free slot used) different locked
      · exact (theirs.tables slot locked).1 used
    · exact (theirs.tables slot locked).2
  within := by
    intro key touched
    exact (fits.within key touched).imp_left (List.mem_append_right slots)

theorem Fits.lockTable (fits : Fits state self txn) {slot : Nat}
    (free : (state.others self fun other =>
      slot ∈ other.slots || slot ∈ other.tables) = false) :
    Fits state self { txn with tables := slot :: txn.tables } where
  lawful := fits.lawful
  beside := by
    intro other different
    obtain ⟨mine, theirs⟩ := fits.beside other different
    have alone := not_others free different
    simp only [Bool.or_eq_false_iff, decide_eq_false_iff_not] at alone
    refine ⟨⟨mine.advisory, fun taken member => ?_⟩,
      ⟨theirs.advisory, fun taken locked => ⟨?_, fun member => ?_⟩⟩⟩
    · rcases List.mem_cons.mp member with rfl | member
      · exact alone
      · exact mine.tables taken member
    · exact (theirs.tables taken locked).1
    · rcases List.mem_cons.mp member with rfl | member
      · exact alone.2 locked
      · exact (theirs.tables taken locked).2 member
  within := by
    intro key touched
    exact (fits.within key touched).imp_right (List.mem_cons_of_mem _)

/-- The draft is another one, over partitions that are taken. -/
theorem Fits.draft (fits : Fits state self txn)
    {draft : Draft (Entry Columns) Key}
    (lawful : Lawful Entry.key state.rows
      (Function.update state.drafts self draft))
    (within : ∀ key : Key, draft.touches Entry.key key = true →
      key.1 ∈ txn.slots ∨ key.1 ∈ txn.tables) :
    Fits state self { txn with draft } where
  lawful := lawful
  beside := by
    intro other different
    obtain ⟨mine, theirs⟩ := fits.beside other different
    exact ⟨⟨mine.advisory, mine.tables⟩, ⟨theirs.advisory, theirs.tables⟩⟩
  within := within

/-- A session goes on, and the rows stay as they are. -/
theorem State.Sound.put (sound : state.Sound)
    (fits : Fits state self session.current)
    (stage : StageSound state.rows state.generation session.current
      session.stage) : (state.put self session).Sound where
  lawful := by
    rw [drafts_put]
    exact fits.lawful
  apart := by
    intro one other different
    by_cases isOne : one = self
    · subst isOne
      rw [session_put_self, session_put_of_ne different.symm]
      exact (fits.beside other different.symm).1
    · rw [session_put_of_ne isOne]
      by_cases isOther : other = self
      · subst isOther
        rw [session_put_self]
        exact (fits.beside one isOne).2
      · rw [session_put_of_ne isOther]
        exact sound.apart one other different
  within := by
    intro other
    by_cases isSelf : other = self
    · subst isSelf
      rw [session_put_self]
      exact fits.within
    · rw [session_put_of_ne isSelf]
      exact sound.within other
  stage := by
    intro other
    by_cases isSelf : other = self
    · subst isSelf
      rw [session_put_self]
      exact stage
    · rw [session_put_of_ne isSelf]
      exact sound.stage other

end

end Sqlery.Rotation
