import Sqlery.Rotation.Kept

/-!
# The slot behind the current one

When all writers are fenced, entries are in the current slot and the one before
it: the ring moves on to a slot without entries, and a writer that has read the
generation inserts into the current slot until its transaction ends.
-/

namespace Sqlery.Rotation

open ReadCommitted Runs

variable {Columns : Type} {n : Nat}

/-- Rotation is on in every process, and its sequence is there. -/
def Fenced (_ : State Columns n) (action : RingAction Columns n) : Prop :=
  ∀ self enabled present, action = .plan self enabled present →
    (planWriter enabled true present).fenced = true

def previousSlot (generation : Nat) : Nat :=
  (slotForGeneration generation + 2) % slotCount

theorem previousSlot_succ (generation : Nat) :
    previousSlot (generation + 1) = slotForGeneration generation := by
  simp only [previousSlot, slotForGeneration, slotCount]
  omega

theorem slot_ne_next {generation slot : Nat}
    (placed : slot = slotForGeneration generation ∨
      slot = previousSlot generation) :
    slot ≠ slotForGeneration (generation + 1) := by
  simp only [previousSlot, slotForGeneration, slotCount] at *
  omega

/-! ## Where entries are -/

/-- A client inserts into the current slot, or where an entry is. -/
structure Placed (rows : List (Entry Columns)) (generation : Nat)
    (txn : Txn Columns) : Prop where
  inserted : ∀ row ∈ txn.draft.inserted,
    (txn.shared = true ∧ row.slot = slotForGeneration generation) ∨
      row.key ∈ rows.map Entry.key
  planned : ∀ slot, txn.slot = some slot →
    txn.shared = true ∧ slot = slotForGeneration generation

structure State.Ring (state : State Columns n) : Prop where
  rows : ∀ row ∈ state.rows, row.slot = slotForGeneration state.generation ∨
    row.slot = previousSlot state.generation
  placed : ∀ self, (state.session self).stage = .resting →
    Placed state.rows state.generation (state.session self).current
  switching : ∀ self loop now,
    (state.session self).stage = .ticking loop (.switchNext now) →
    ∀ row ∈ state.rows, row.slot = slotForGeneration state.generation

section

variable {state next : State Columns n} {self other : Fin n}
variable {session : Session Columns}

theorem Placed.empty {rows : List (Entry Columns)} {generation : Nat}
    {txn : Txn Columns} (draft : txn.draft.inserted = [])
    (slot : txn.slot = none) : Placed rows generation txn where
  inserted := by
    intro row member
    rw [draft] at member
    cases member
  planned := by
    intro planned found
    rw [slot] at found
    cases found

/-- One session changes, and no entry is committed. -/
theorem State.Ring.of_update (ring : state.Ring) (rows : next.rows = state.rows)
    (generation : next.generation = state.generation)
    (sessions : next.session = Function.update state.session self session)
    (placed : session.stage = .resting →
      Placed state.rows state.generation session.current)
    (switching : ∀ loop now, session.stage = .ticking loop (.switchNext now) →
      ∀ row ∈ state.rows, row.slot = slotForGeneration state.generation) :
    next.Ring := by
  refine ⟨?_, ?_, ?_⟩
  · rw [rows, generation]
    exact ring.rows
  · intro other
    rw [rows, generation, sessions]
    by_cases isSelf : other = self
    · subst isSelf
      rw [Function.update_self]
      exact placed
    · rw [Function.update_of_ne isSelf]
      exact ring.placed other
  · intro other
    rw [rows, generation, sessions]
    by_cases isSelf : other = self
    · subst isSelf
      rw [Function.update_self]
      exact switching
    · rw [Function.update_of_ne isSelf]
      exact ring.switching other

theorem State.Ring.writes (ring : state.Ring) {txn : Txn Columns}
    (placed : Placed state.rows state.generation txn) :
    (state.writes self txn).Ring :=
  ring.of_update rfl rfl rfl (fun _ => placed) fun _ _ same => by cases same

/-! ## Clients -/

theorem Placed.congr {rows : List (Entry Columns)} {generation : Nat}
    {txn made : Txn Columns} (placed : Placed rows generation txn)
    (draft : made.draft = txn.draft) (shared : made.shared = txn.shared)
    (slot : made.slot = txn.slot) : Placed rows generation made where
  inserted := by
    rw [draft, shared]
    exact placed.inserted
  planned := by
    rw [slot, shared]
    exact placed.planned

theorem State.Ring.plan (ring : state.Ring) {enabled present : Bool}
    (fenced : (planWriter enabled true present).fenced = true)
    (taken : state.plan self enabled present = some next) : next.Ring := by
  unfold State.plan at taken
  cases isAt : (state.session self).stage with
  | ticking loop at_ => simp [isAt] at taken
  | resting =>
      simp only [isAt, fenced, if_true] at taken
      split at taken
      · cases taken
      · obtain rfl := Option.some.inj taken
        refine ring.writes ⟨fun row member => ?_, fun slot found => ?_⟩
        · exact ((ring.placed self isAt).inserted row member).imp_left
            fun placed => ⟨rfl, placed.2⟩
        · cases found

theorem State.Ring.readGeneration (ring : state.Ring)
    (taken : state.readGeneration self = some next) : next.Ring := by
  unfold State.readGeneration at taken
  cases isAt : (state.session self).stage with
  | ticking loop at_ => simp [isAt] at taken
  | resting =>
      simp only [isAt] at taken
      split at taken
      · rename_i read
        obtain rfl := Option.some.inj taken
        refine ring.writes
          ⟨(ring.placed self isAt).inserted, fun slot found => ?_⟩
        obtain rfl := Option.some.inj found
        exact ⟨(Bool.and_eq_true _ _ ▸ read).1, rfl⟩
      · cases taken

theorem State.Ring.insert (ring : state.Ring) (sound : state.Sound) {job : Nat}
    {columns : Columns}
    (taken : state.insert self job columns = some next) : next.Ring := by
  unfold State.insert at taken
  cases isAt : (state.session self).stage with
  | ticking loop at_ => simp [isAt] at taken
  | resting =>
      cases planned : (state.session self).current.slot with
      | none => simp [isAt, planned] at taken
      | some slot =>
          simp only [isAt, planned] at taken
          obtain ⟨made, inserted, rfl⟩ := Option.map_eq_some_iff.mp taken
          have placed := ring.placed self isAt
          have current := placed.planned slot planned
          refine ring.of_update rfl rfl rfl (fun _ => ?_) fun _ _ same => by
            cases same
          cases (sound.insertEntry inserted).2 with
          | conflict seen => exact placed.congr rfl rfl rfl
          | insert unseen =>
              refine ⟨fun row member => ?_, placed.planned⟩
              rcases List.mem_cons.mp member with rfl | member
              · exact .inl current
              · exact placed.inserted row member

theorem State.Ring.scan (ring : state.Ring)
    (taken : state.scan self = some next) : next.Ring := by
  unfold State.scan at taken
  cases isAt : (state.session self).stage with
  | ticking loop at_ => simp [isAt] at taken
  | resting =>
      simp only [isAt] at taken
      split at taken
      · cases taken
      · obtain rfl := Option.some.inj taken
        exact ring.writes ((ring.placed self isAt).congr rfl rfl rfl)

/-- What is inserted of an entry that is there stays in its place. -/
theorem State.Ring.reach (ring : state.Ring) {key : Key}
    {change : Draft (Entry Columns) Key → Draft (Entry Columns) Key}
    (inserted : ∀ draft : Draft (Entry Columns) Key,
      ∀ row ∈ (change draft).inserted, row ∈ draft.inserted ∨ row.key = key)
    (taken : state.reach self key change = some next) : next.Ring := by
  unfold State.reach at taken
  cases isAt : (state.session self).stage with
  | ticking loop at_ => simp [isAt] at taken
  | resting =>
      simp only [isAt] at taken
      have placed := ring.placed self isAt
      split at taken
      · cases taken
      · split at taken
        · rename_i seen
          obtain rfl := Option.some.inj taken
          refine ring.writes ⟨fun row member => ?_, placed.planned⟩
          rcases inserted _ row member with member | same
          · exact placed.inserted row member
          · obtain ⟨entry, viewed, isKey⟩ := Draft.sees_iff.mp seen
            rw [← same] at isKey
            rcases Draft.mem_view.mp viewed with ⟨isRow, -⟩ | member
            · exact .inr (List.mem_map.mpr ⟨entry, isRow, isKey⟩)
            · have sameSlot : entry.slot = row.slot := congrArg Prod.fst isKey
              rw [← isKey, ← sameSlot]
              exact placed.inserted entry member
        · obtain rfl := Option.some.inj taken
          exact ring.writes (placed.congr rfl rfl rfl)

/-! ## Commits -/

/-- What a session commits is in the current slot, if it holds the generation,
or where an entry is. -/
theorem State.Ring.inserted (ring : state.Ring) (sound : state.Sound)
    {row : Entry Columns} (member : row ∈ (state.drafts self).inserted) :
    ((state.session self).current.shared = true ∧
        row.slot = slotForGeneration state.generation) ∨
      row.key ∈ state.rows.map Entry.key := by
  cases isAt : (state.session self).stage with
  | resting => exact (ring.placed self isAt).inserted row member
  | ticking loop at_ => exact .inl ((sound.stands isAt).1.inserted row member)

theorem slot_of_key (holds : Nat → Prop) {row : Entry Columns}
    {rows : List (Entry Columns)} (all : ∀ row ∈ rows, holds row.slot)
    (member : row.key ∈ rows.map Entry.key) : holds row.slot := by
  obtain ⟨entry, isRow, same⟩ := List.mem_map.mp member
  have sameSlot : entry.slot = row.slot := congrArg Prod.fst same
  rw [← sameSlot]
  exact all entry isRow

theorem State.Sound.excludes (sound : state.Sound) {loop : Loop} {now : Int}
    (isAt : (state.session other).stage = .ticking loop (.switchNext now))
    (different : other ≠ self) :
    (state.session self).current.shared = false ∧
      (state.session self).current.exclusive = false :=
  (sound.apart other self different).advisory (sound.stands isAt).2.1

theorem State.Ring.commit (ring : state.Ring) (sound : state.Sound)
    (rows : next.rows = (state.commit self).rows)
    (generation : next.generation = state.generation)
    (sessions : next.session = Function.update state.session self session)
    (closed : session.txn = none)
    (stage : ∀ loop now, session.stage ≠ .ticking loop (.switchNext now)) :
    next.Ring := by
  have viewed {row : Entry Columns} (member : row ∈ next.rows) :
      row ∈ state.rows ∨ row ∈ (state.drafts self).inserted := by
    rw [rows, sound.rows_commit] at member
    exact (Draft.mem_view.mp member).imp_left And.left
  refine ⟨?_, ?_, ?_⟩
  · intro row member
    rw [generation]
    rcases viewed member with isRow | inserted
    · exact ring.rows row isRow
    · rcases ring.inserted sound inserted with ⟨-, current⟩ | there
      · exact .inl current
      · exact slot_of_key
          (fun slot => slot = slotForGeneration state.generation ∨
          slot = previousSlot state.generation) ring.rows there
  · intro other
    rw [generation, sessions]
    by_cases isSelf : other = self
    · subst isSelf
      rw [Function.update_self]
      intro _
      have current : session.current = {} := by
        rw [Session.current, closed]
        rfl
      rw [current]
      exact .empty rfl rfl
    · rw [Function.update_of_ne isSelf]
      intro isAt
      obtain ⟨inserted, planned⟩ := ring.placed other isAt
      refine ⟨fun row member => ?_, planned⟩
      refine (inserted row member).imp_right fun there => ?_
      obtain ⟨entry, isRow, same⟩ := List.mem_map.mp there
      refine List.mem_map.mpr ⟨entry, ?_, same⟩
      rw [rows]
      refine (sound.leaves_commit isSelf).touched entry isRow ?_
      rw [same]
      exact Draft.touches_of_inserted member
  · intro other loop now
    rw [generation, sessions]
    by_cases isSelf : other = self
    · subst isSelf
      rw [Function.update_self]
      intro isAt
      exact absurd isAt (stage loop now)
    · rw [Function.update_of_ne isSelf]
      intro isAt row member
      have all := ring.switching other loop now isAt
      rcases viewed member with isRow | inserted
      · exact all row isRow
      · rcases ring.inserted sound inserted with ⟨shared, -⟩ | there
        · rw [(sound.excludes isAt isSelf).1] at shared
          cases shared
        · exact slot_of_key (fun slot =>
            slot = slotForGeneration state.generation) all there

/-! ## Ticks -/

theorem slot_lt (generation : Nat) {slot : Nat}
    (placed : slot = slotForGeneration generation ∨
      slot = previousSlot generation) : slot < slotCount := by
  simp only [previousSlot, slotForGeneration, slotCount] at *
  omega

/-- The generation moves on: what was current is the slot before. -/
theorem State.Ring.advance (ring : state.Ring) (sound : state.Sound)
    {loop : Loop} {now : Int}
    (isAt : (state.session self).stage = .ticking loop (.switchNext now))
    (rows : next.rows = state.rows)
    (generation : next.generation = state.generation + 1)
    (sessions : next.session = Function.update state.session self session)
    (stage : ∃ loop, session.stage = .ticking loop (.switchStamp now)) :
    next.Ring := by
  have all := ring.switching self loop now isAt
  obtain ⟨after, stage⟩ := stage
  refine ⟨?_, ?_, ?_⟩
  · intro row member
    rw [rows] at member
    rw [generation, previousSlot_succ]
    exact .inr (all row member)
  · intro other
    rw [rows, sessions]
    by_cases isSelf : other = self
    · subst isSelf
      rw [Function.update_self, stage]
      intro resting
      cases resting
    · rw [Function.update_of_ne isSelf]
      intro resting
      obtain ⟨inserted, planned⟩ := ring.placed other resting
      have unshared := (sound.excludes isAt (Ne.symm isSelf)).1
      refine ⟨fun row member => .inr ?_, fun slot found => ?_⟩
      · rcases inserted row member with ⟨shared, -⟩ | there
        · rw [unshared] at shared
          cases shared
        · exact there
      · have shared := (planned slot found).1
        rw [unshared] at shared
        cases shared
  · intro other loop now isOther
    rw [sessions] at isOther
    by_cases isSelf : other = self
    · subst isSelf
      rw [Function.update_self, stage] at isOther
      cases isOther
    · rw [Function.update_of_ne isSelf] at isOther
      have free := (sound.excludes isAt (Ne.symm isSelf)).2
      rw [(sound.stands isOther).2.1] at free
      cases free

theorem State.Ring.effect (ring : state.Ring) (sound : state.Sound)
    (effect : Effect state self next) : next.Ring := by
  cases effect with
  | clears session rows generation sessions draft planned stage =>
      refine ring.of_update rows generation sessions (fun _ => ?_) ?_
      · exact .empty (by rw [draft]) planned
      · intro loop now same
        exact absurd same (stage loop now)
  | goes loop at_ behind session isAt rows generation sessions stage deleted
      inserted hand switching =>
      obtain ⟨after, stage⟩ := stage
      refine ring.of_update rows generation sessions ?_ ?_
      · rw [stage]
        intro resting
        cases resting
      · intro loop now same row member
        rw [stage] at same
        cases same
        exact switching now rfl row member (slot_lt _ (ring.rows row member))
  | takes loop moving row session isAt rows generation sessions hand todo draft
      stage =>
      obtain ⟨after, moved, stage, -⟩ := stage
      refine ring.of_update rows generation sessions ?_ ?_
      · rw [stage]
        intro resting
        cases resting
      · intro loop now same
        rw [stage] at same
        cases same
  | puts loop moving row session isAt rows generation sessions hand inserts
      stage =>
      obtain ⟨after, moved, stage, -⟩ := stage
      refine ring.of_update rows generation sessions ?_ ?_
      · rw [stage]
        intro resting
        cases resting
      · intro loop now same
        rw [stage] at same
        cases same
  | commits loop at_ session isAt hand rows generation sessions closed stage =>
      exact ring.commit sound rows generation sessions closed stage
  | advances loop now session isAt rows generation sessions current stage =>
      exact ring.advance sound isAt rows generation sessions stage

theorem State.Ring.act (ring : state.Ring) (sound : state.Sound)
    {action : RingAction Columns n} (fenced : Fenced state action)
    (taken : act state action = some next) : next.Ring := by
  cases action with
  | plan self enabled present =>
      exact ring.plan (fenced self enabled present rfl) taken
  | readGeneration self => exact ring.readGeneration taken
  | insert self job columns => exact ring.insert sound taken
  | scan self => exact ring.scan taken
  | lock self key =>
      simp only [Rotation.act, State.lockEntry] at taken
      refine ring.reach (fun draft row member => .inl ?_) taken
      exact member
  | delete self key =>
      simp only [Rotation.act, State.deleteEntry] at taken
      refine ring.reach (fun draft row member => .inl ?_) taken
      exact (List.mem_filter.mp member).1
  | update self key columns =>
      simp only [Rotation.act, State.updateEntry] at taken
      refine ring.reach (fun draft row member => ?_) taken
      rcases List.mem_cons.mp member with rfl | member
      · exact .inr rfl
      · exact .inl (List.mem_filter.mp member).1
  | commit self =>
      simp only [Rotation.act] at taken
      split at taken
      · rename_i resting
        obtain rfl := Option.some.inj taken
        refine ring.commit sound rfl rfl rfl rfl fun loop now same => ?_
        cases resting.symm.trans same
      · cases taken
  | fail self =>
      obtain rfl := Option.some.inj taken
      refine ring.of_update rfl rfl rfl (fun _ => .empty rfl rfl) ?_
      intro loop now same
      cases same
  | elapse seconds =>
      obtain rfl := Option.some.inj taken
      exact ⟨ring.rows, ring.placed, ring.switching⟩
  | vacuum slot =>
      simp only [Rotation.act, State.vacuum] at taken
      split at taken
      · cases taken
      · obtain rfl := Option.some.inj taken
        exact ⟨ring.rows, ring.placed, ring.switching⟩
  | tick self config => exact ring.effect sound (effect_of_tick taken)
  | pick self jobs => exact ring.effect sound (effect_of_pick taken)
  | step self => exact ring.effect sound (effect_of_step sound taken)

end

/-! ## Runs -/

/-- The slot behind the current one is not in use. -/
structure State.NextEmpty (state : State Columns n) : Prop where
  rows : ∀ row ∈ state.rows, row.slot ≠ slotForGeneration (state.generation + 1)
  inserted : ∀ self, ∀ row ∈ (state.drafts self).inserted,
    row.slot ≠ slotForGeneration (state.generation + 1)
  writers : ∀ self slot, (state.session self).stage = .resting →
    (state.session self).current.slot = some slot →
    slot = slotForGeneration state.generation
  switches : ∀ action next, act state action = some next →
    next.generation ≠ state.generation →
    next.generation = state.generation + 1 ∧
      (∀ row ∈ state.rows, row.slot = slotForGeneration state.generation) ∧
      ∀ self, (state.session self).stage = .resting →
        (state.session self).current.slot = none

section

variable {start state next : State Columns n}

theorem State.Ring.inserted_ne_next (ring : state.Ring) (sound : state.Sound)
    (self : Fin n) (row : Entry Columns)
    (member : row ∈ (state.drafts self).inserted) :
    row.slot ≠ slotForGeneration (state.generation + 1) := by
  rcases ring.inserted sound member with ⟨-, current⟩ | there
  · exact slot_ne_next (.inl current)
  · exact slot_of_key (· ≠ slotForGeneration (state.generation + 1))
      (fun row member => slot_ne_next (ring.rows row member)) there

theorem State.Ring.switches (ring : state.Ring) (sound : state.Sound)
    {action : RingAction Columns n}
    (taken : Rotation.act state action = some next)
    (moved : next.generation ≠ state.generation) :
    next.generation = state.generation + 1 ∧
      (∀ row ∈ state.rows, row.slot = slotForGeneration state.generation) ∧
      ∀ self, (state.session self).stage = .resting →
        (state.session self).current.slot = none := by
  cases does_of_act sound taken with
  | nothing rows generation sessions => exact absurd generation moved
  | client self session rows generation => exact absurd generation moved
  | commit self session isAt rows generation => exact absurd generation moved
  | tick self _ effect =>
      cases effect with
      | clears session rows generation => exact absurd generation moved
      | goes loop at_ behind session isAt rows generation =>
          exact absurd generation moved
      | takes loop moving row session isAt rows generation =>
          exact absurd generation moved
      | puts loop moving row session isAt rows generation =>
          exact absurd generation moved
      | commits loop at_ session isAt hand rows generation =>
          exact absurd generation moved
      | advances loop now session isAt rows generation =>
          refine ⟨generation, ring.switching self loop now isAt, ?_⟩
          intro other resting
          have different : self ≠ other := by
            rintro rfl
            cases isAt.symm.trans resting
          cases planned : (state.session other).current.slot with
          | none => rfl
          | some slot =>
              have shared := ((ring.placed other resting).planned
                slot planned).1
              rw [(sound.excludes isAt different).1] at shared
              cases shared

/-- In a run of fenced writers the generation moves on to a slot that has no
entry, committed or in the making, and no writer is left behind. -/
theorem ring_nextEmpty (begins : start.Begins)
    (placed : ∀ row ∈ start.rows,
      row.slot = slotForGeneration start.generation ∨
        row.slot = previousSlot start.generation)
    (reached : Reaches act Fenced start state) : state.NextEmpty := by
  have first : start.Ring := by
    refine ⟨placed, ?_, ?_⟩
    · intro self _
      rw [begins.session self]
      exact .empty rfl rfl
    · intro self loop now isAt
      rw [begins.session self] at isAt
      cases isAt
  have invariant : state.Sound ∧ state.Ring := by
    induction reached with
    | refl => exact ⟨begins.sound, first⟩
    | step _ fenced taken ih =>
        exact ⟨ih.1.act taken, ih.2.act ih.1 fenced taken⟩
  obtain ⟨sound, ring⟩ := invariant
  refine {
    rows := fun row member => slot_ne_next (ring.rows row member)
    inserted := ring.inserted_ne_next sound
    writers := fun self slot resting planned =>
      ((ring.placed self resting).planned slot planned).2
    switches := ?_ }
  intro action next taken moved
  exact ring.switches sound taken moved

end

section

-- The run is evaluated, a statement at a time.
set_option maxRecDepth 2000

def fencedOnly (_ : State Nat 2) : RingAction Nat 2 → Bool
  | .plan _ enabled present => (planWriter enabled true present).fenced
  | _ => true

theorem fenced_of_fencedOnly (state : State Nat 2) (action : RingAction Nat 2)
    (checked : fencedOnly state action = true) : Fenced state action := by
  intro self enabled present isPlan
  subst isPlan
  exact checked

theorem ring_nextEmpty_turn : ∃ state,
    runWhile act fencedOnly migrated
        (writeJob ++ .commit writer :: turn ++ [.step rotator]) = some state ∧
      state.generation = 4 ∧ state.NextEmpty := by
  refine ⟨_, rfl, rfl, ?_⟩
  refine ring_nextEmpty migrated_begins ?_
    (reaches_of_runWhile fenced_of_fencedOnly
      (show runWhile act fencedOnly migrated
        (writeJob ++ .commit writer :: turn ++ [.step rotator]) = some _
        from rfl))
  intro row member
  cases member

end

end Sqlery.Rotation
