import Sqlery.Rotation.Sound

/-!
# Runs of the ring

Every action keeps the invariant: those of writers and claimers, and those of a
tick statement by statement.
-/

namespace Sqlery.Rotation

open ReadCommitted Runs

variable {Columns : Type} {n : Nat}

/-! ## Commits -/

section

variable {state : State Columns n} {self other : Fin n}

theorem Moves.empty {rows : List (Entry Columns)} {generation : Nat} :
    Moves rows generation {} where
  deleted := fun _ member => absurd member List.not_mem_nil
  inserted := fun _ member => absurd member List.not_mem_nil
  copies := fun _ member => absurd member List.not_mem_nil
  truncated := fun _ member => absurd member List.not_mem_nil

/-- No row that is left in a draft is in a partition that it truncates. -/
theorem Moves.not_truncated {rows : List (Entry Columns)} {generation : Nat}
    {txn : Txn Columns} (moves : Moves rows generation txn)
    {row : Entry Columns}
    (viewed : row ∈ txn.draft.view Entry.key rows) :
    row.slot ∉ txn.truncated := by
  intro truncated
  obtain ⟨off, -, emptied⟩ := moves.truncated row.slot truncated
  rcases Draft.mem_view.mp viewed with ⟨isRow, kept⟩ | inserted
  · exact kept (emptied row isRow rfl)
  · exact off.other (moves.inserted row inserted).2

/-- A truncated partition takes no entry with it. -/
theorem State.Sound.rows_commit (sound : state.Sound) (self : Fin n) :
    (state.commit self).rows =
      (state.drafts self).view Entry.key state.rows := by
  refine List.filter_eq_self.mpr ?_
  intro row viewed
  rw [decide_eq_true_eq]
  have stands := sound.stage self
  cases isAt : (state.session self).stage with
  | resting =>
      rw [isAt] at stands
      have none_ : (state.session self).current.truncated = [] := stands
      rw [none_]
      exact List.not_mem_nil
  | ticking loop at_ =>
      rw [isAt] at stands
      exact stands.1.not_truncated viewed

theorem State.Sound.leaves_commit (sound : state.Sound)
    (different : other ≠ self) :
    Leaves state.rows (state.commit self).rows state.generation state.generation
      (state.session other).current := by
  have taken (key : Key)
      (touched : (state.drafts self).touches Entry.key key = true) :
      key.1 ∉ (state.session other).current.tables := by
    intro locked
    have apart := (sound.apart other self different).tables key.1 locked
    rcases sound.within self key touched with used | used
    · exact apart.1 used
    · exact apart.2 used
  rw [sound.rows_commit]
  refine ⟨fun _ => rfl, ?_, ?_⟩
  · intro row member touched
    refine Draft.mem_view.mpr (.inl ⟨member, fun deleted => ?_⟩)
    exact different (sound.lawful.apart other self row.key touched
      (Draft.touches_of_deleted deleted))
  · intro row locked
    constructor
    · intro member
      refine Draft.mem_view.mpr (.inl ⟨member, fun deleted => ?_⟩)
      exact taken row.key (Draft.touches_of_deleted deleted) locked
    · intro viewed
      rcases Draft.mem_view.mp viewed with ⟨member, -⟩ | inserted
      · exact member
      · exact absurd locked
          (taken row.key (Draft.touches_of_inserted inserted))

theorem drafts_commit : (state.commit self).drafts = state.drafts := rfl

/-- The transaction of a session is committed, and it goes on with none. -/
theorem State.Sound.commitPut (sound : state.Sound) {session : Session Columns}
    (closed : session.txn = none)
    (stage : StageSound (state.commit self).rows state.generation {}
      session.stage) : ((state.commit self).put self session).Sound := by
  have current : session.current = {} := by
    rw [Session.current, closed]
    rfl
  have empty := sound.fitsEmpty self
  refine ⟨?_, ?_, ?_, ?_⟩
  · rw [drafts_put, current, drafts_commit]
    have committed := sound.lawful.commit self
    rw [← sound.rows_commit] at committed
    exact committed
  · intro one other different
    by_cases isOne : one = self
    · subst isOne
      rw [session_put_self, session_put_of_ne different.symm, current]
      exact (empty.beside other different.symm).1
    · rw [session_put_of_ne isOne]
      by_cases isOther : other = self
      · subst isOther
        rw [session_put_self, current]
        exact (empty.beside one isOne).2
      · rw [session_put_of_ne isOther]
        exact sound.apart one other different
  · intro other
    by_cases isSelf : other = self
    · subst isSelf
      rw [session_put_self, current]
      exact empty.within
    · rw [session_put_of_ne isSelf]
      exact sound.within other
  · intro other
    by_cases isSelf : other = self
    · subst isSelf
      rw [session_put_self, current]
      exact stage
    · rw [session_put_of_ne isSelf]
      exact (sound.stage other).keep (sound.leaves_commit isSelf)

theorem State.Sound.again (sound : state.Sound) (loop : Loop) :
    ((state.commit self).again self loop).Sound :=
  sound.commitPut rfl ⟨Moves.empty, trivial⟩

theorem State.Sound.stopCommit (sound : state.Sound) (report : Report) :
    ((state.commit self).stop self report).Sound :=
  sound.commitPut rfl (rfl : ({} : Txn Columns).truncated = [])

theorem State.Sound.stop (sound : state.Sound) (report : Report) :
    (state.stop self report).Sound :=
  sound.put (sound.fitsEmpty self) (rfl : ({} : Txn Columns).truncated = [])

theorem State.Sound.paged (sound : state.Sound) (slot : Nat) :
    (state.paged slot).Sound :=
  ⟨sound.lawful, sound.apart, sound.within, sound.stage⟩

end

/-! ## Writers and claimers -/

section

variable {state next : State Columns n} {self : Fin n}

theorem State.Sound.writes (sound : state.Sound) {txn : Txn Columns}
    (fits : Fits state self txn) (none_ : txn.truncated = []) :
    (state.writes self txn).Sound :=
  sound.put fits none_

/-- A session that rests has truncated nothing. -/
theorem State.Sound.resting (sound : state.Sound)
    (isAt : (state.session self).stage = .resting) :
    (state.session self).current.truncated = [] := by
  have stands := sound.stage self
  rw [isAt] at stands
  exact stands

theorem State.Sound.plan (sound : state.Sound) {enabled present : Bool}
    (taken : state.plan self enabled present = some next) : next.Sound := by
  unfold State.plan at taken
  cases isAt : (state.session self).stage with
  | ticking loop at_ => simp [isAt] at taken
  | resting =>
      simp only [isAt] at taken
      have none_ := sound.resting isAt
      have fits := sound.fits self
      split at taken
      · split at taken
        · cases taken
        · rename_i free
          obtain rfl := Option.some.inj taken
          exact sound.writes (fits.share (by simpa using free) none) none_
      · obtain rfl := Option.some.inj taken
        exact sound.writes (fits.congr rfl rfl rfl rfl rfl) none_

theorem State.Sound.readGeneration (sound : state.Sound)
    (taken : state.readGeneration self = some next) : next.Sound := by
  unfold State.readGeneration at taken
  cases isAt : (state.session self).stage with
  | ticking loop at_ => simp [isAt] at taken
  | resting =>
      simp only [isAt] at taken
      split at taken
      · obtain rfl := Option.some.inj taken
        exact sound.writes ((sound.fits self).congr rfl rfl rfl rfl rfl)
          (sound.resting isAt)
      · cases taken

/-- What an insert leaves: a conflict is passed over. -/
inductive Inserts (state : State Columns n) (self : Fin n)
    (entry : Entry Columns) : Txn Columns → Prop where
  | conflict
      (seen : (state.drafts self).sees Entry.key state.rows entry.key = true) :
      Inserts state self entry { (state.session self).current with
        slots := entry.slot :: (state.session self).current.slots }
  | insert
      (unseen : (state.drafts self).sees Entry.key state.rows
        entry.key = false) :
      Inserts state self entry { (state.session self).current with
        draft := (state.drafts self).insert entry
        slots := entry.slot :: (state.session self).current.slots }

theorem State.Sound.insertEntry (sound : state.Sound) {entry : Entry Columns}
    {made : Txn Columns}
    (taken : state.insertEntry self (state.session self).current entry =
      some made) : Fits state self made ∧ Inserts state self entry made := by
  unfold State.insertEntry at taken
  split at taken
  · cases taken
  · rename_i free
    simp only [Bool.or_eq_true, not_or, Bool.not_eq_true] at free
    obtain ⟨unblocked, alone⟩ := free
    have free (other : Fin n) (different : other ≠ self) :
        (state.drafts other).changes Entry.key entry.key = false :=
      not_others alone different
    have fits := (sound.fits self).use [entry.slot]
      (by simpa using unblocked)
    split at taken
    · rename_i seen
      obtain rfl := Option.some.inj taken
      exact ⟨fits, .conflict seen⟩
    · rename_i unseen
      have unseen : (state.drafts self).sees Entry.key state.rows entry.key =
          false := Bool.eq_false_iff.mpr unseen
      obtain rfl := Option.some.inj taken
      refine ⟨fits.draft (sound.lawful.insert unseen free) ?_, .insert unseen⟩
      intro key touched
      rcases Draft.touches_insert touched with rfl | touched
      · exact .inl List.mem_cons_self
      · exact fits.within key touched

theorem State.Sound.insert (sound : state.Sound) {job : Nat} {columns : Columns}
    (taken : state.insert self job columns = some next) : next.Sound := by
  unfold State.insert at taken
  cases isAt : (state.session self).stage with
  | ticking loop at_ => simp [isAt] at taken
  | resting =>
      cases planned : (state.session self).current.slot with
      | none => simp [isAt, planned] at taken
      | some slot =>
          simp only [isAt, planned] at taken
          obtain ⟨made, inserted, rfl⟩ := Option.map_eq_some_iff.mp taken
          obtain ⟨fits, inserts⟩ := sound.insertEntry inserted
          have none_ := sound.resting isAt
          refine (sound.paged slot).writes
            ⟨fits.lawful, fits.beside, fits.within⟩ ?_
          cases inserts with
          | conflict => exact none_
          | insert => exact none_

theorem State.Sound.scan (sound : state.Sound)
    (taken : state.scan self = some next) : next.Sound := by
  unfold State.scan at taken
  cases isAt : (state.session self).stage with
  | ticking loop at_ => simp [isAt] at taken
  | resting =>
      simp only [isAt] at taken
      split at taken
      · cases taken
      · rename_i free
        obtain rfl := Option.some.inj taken
        refine sound.writes ((sound.fits self).use _ fun slot member => ?_)
          (sound.resting isAt)
        simpa using List.any_eq_false.mp (by simpa using free) slot member

/-- A statement about one entry, that no other transaction has. -/
theorem State.Sound.reach (sound : state.Sound) {key : Key}
    {change : Draft (Entry Columns) Key → Draft (Entry Columns) Key}
    (lawful : (state.drafts self).sees Entry.key state.rows key = true →
      (∀ other, other ≠ self →
        (state.drafts other).touches Entry.key key = false) →
      Lawful Entry.key state.rows
        (Function.update state.drafts self (change (state.drafts self))))
    (touches : ∀ name,
      (change (state.drafts self)).touches Entry.key name = true →
      name = key ∨ (state.drafts self).touches Entry.key name = true)
    (taken : state.reach self key change = some next) : next.Sound := by
  unfold State.reach at taken
  cases isAt : (state.session self).stage with
  | ticking loop at_ => simp [isAt] at taken
  | resting =>
      simp only [isAt] at taken
      split at taken
      · cases taken
      · rename_i free
        simp only [Bool.or_eq_true, not_or, Bool.not_eq_true] at free
        obtain ⟨unblocked, alone⟩ := free
        have fits := (sound.fits self).use [key.1]
          (by simpa using unblocked)
        have none_ := sound.resting isAt
        split at taken
        · rename_i seen
          obtain rfl := Option.some.inj taken
          refine sound.writes (fits.draft (lawful seen ?_) ?_) none_
          · intro other different
            exact not_others alone different
          · intro name touched
            rcases touches name touched with rfl | touched
            · exact .inl List.mem_cons_self
            · exact fits.within name touched
        · obtain rfl := Option.some.inj taken
          exact sound.writes fits none_

theorem State.Sound.lockEntry (sound : state.Sound) {key : Key}
    (taken : state.lockEntry self key = some next) : next.Sound := by
  refine sound.reach (fun seen free => sound.lawful.lock ?_ ?_) ?_ taken
  · intro name member
    obtain rfl := List.mem_singleton.mp member
    obtain ⟨row, viewed, same⟩ := Draft.sees_iff.mp seen
    rcases Draft.mem_view.mp viewed with ⟨isRow, -⟩ | inserted
    · exact .inl (List.mem_map.mpr ⟨row, isRow, same⟩)
    · exact .inr (Draft.changes_iff.mpr (.inr ⟨row, inserted, same⟩))
  · intro name member
    obtain rfl := List.mem_singleton.mp member
    exact free
  · intro name touched
    exact (Draft.touches_lock touched).imp_left List.mem_singleton.mp

theorem State.Sound.deleteEntry (sound : state.Sound) {key : Key}
    (taken : state.deleteEntry self key = some next) : next.Sound :=
  sound.reach (fun _ free => sound.lawful.delete free)
    (fun _ touched => Draft.touches_delete touched) taken

theorem State.Sound.updateEntry (sound : state.Sound) {key : Key}
    {columns : Columns}
    (taken : state.updateEntry self key columns = some next) : next.Sound := by
  refine sound.reach (fun _ free => ?_) (fun name touched => ?_) taken
  · have deleted := sound.lawful.delete free
    have unseen : (Function.update state.drafts self
        ((state.drafts self).delete Entry.key key) self).sees
          Entry.key state.rows
          (Entry.key ⟨key.1, key.2, columns⟩) = false := by
      rw [Function.update_self]
      exact Draft.sees_delete
    have updated := deleted.insert unseen ?_
    · rw [Function.update_self, Function.update_idem] at updated
      exact updated
    · intro other different
      rw [Function.update_of_ne different, Bool.eq_false_iff]
      intro changed
      have touched := Draft.touches_iff.mpr (.inr changed)
      rw [show Entry.key ⟨key.1, key.2, columns⟩ = key from rfl,
        free other different] at touched
      cases touched
  · rcases Draft.touches_insert touched with rfl | touched
    · exact .inl rfl
    · exact Draft.touches_delete touched

end

/-! ## Ticks -/

section

variable {state next : State Columns n} {self : Fin n} {loop : Loop}
variable {at_ : At Columns} {seen : RotationState} {slot cur moved : Nat}

/-- What is known of the session when its tick has a statement before it. -/
theorem State.Sound.stands (sound : state.Sound)
    (isAt : (state.session self).stage = .ticking loop at_) :
    Moves state.rows state.generation (state.session self).current ∧
      AtSound state.rows state.generation (state.session self).current at_ := by
  have stands := sound.stage self
  rw [isAt] at stands
  exact stands

theorem State.Sound.ticks (sound : state.Sound) {txn : Txn Columns}
    (fits : Fits state self txn) (moves : Moves state.rows state.generation txn)
    (stands : AtSound state.rows state.generation txn at_) :
    (state.ticks self txn loop at_).Sound :=
  sound.put fits ⟨moves, stands⟩

theorem State.Sound.goesOn (sound : state.Sound)
    (moves : Moves state.rows state.generation (state.session self).current)
    (stands : AtSound state.rows state.generation (state.session self).current
      at_) : (state.goesOn self loop at_).Sound :=
  sound.ticks (sound.fits self) moves stands

theorem State.Sound.beginRound (sound : state.Sound)
    (taken : state.beginRound self loop = some next) : next.Sound := by
  have begins {loop : Loop} {at_ : At Columns}
      (stands : AtSound state.rows state.generation ({} : Txn Columns) at_) :
      (state.ticks self {} loop at_).Sound :=
    sound.ticks (sound.fitsEmpty self) Moves.empty stands
  unfold State.beginRound at taken
  cases rounds : loop.left with
  | zero =>
      simp only [rounds, Option.some.injEq] at taken
      subst taken
      exact sound.stop _
  | succ left =>
      simp only [rounds] at taken
      split at taken
      · cases taken
      · cases decided :
          decideRotationStep (state.readState loop.config.interval)
          with
        | idle reason =>
            simp only [decided, Option.some.injEq] at taken
            subst taken
            exact sound.stop _
        | drain slot =>
            simp only [decided, Option.some.injEq] at taken
            subst taken
            exact begins trivial
        | reclaim slot =>
            simp only [decided, Option.some.injEq] at taken
            subst taken
            exact begins trivial
        | switch =>
            simp only [decided] at taken
            split at taken
            · obtain rfl := Option.some.inj taken
              exact sound.stop _
            · obtain rfl := Option.some.inj taken
              exact begins rfl
        | retry slot reason =>
            simp only [decided, Option.some.injEq] at taken
            subst taken
            exact sound.stop _

/-! ### `switch` -/

theorem State.Sound.tryLock (sound : state.Sound)
    (isAt : (state.session self).stage = .ticking loop (.switchLock seen)) :
    (state.tryLock self loop seen).Sound := by
  obtain ⟨moves, unshared⟩ := sound.stands isAt
  unfold State.tryLock
  split
  · exact sound.stop _
  · rename_i free
    have free := Bool.eq_false_iff.mpr free
    exact sound.ticks ((sound.fits self).exclude free)
      (moves.congr rfl id (List.Subset.refl _) rfl) ⟨rfl, unshared⟩

theorem State.Sound.decideSwitch (sound : state.Sound)
    (isAt : (state.session self).stage = .ticking loop .switchDecide)
    (taken : state.decideSwitch self loop = some next) : next.Sound := by
  obtain ⟨moves, stands⟩ := sound.stands isAt
  unfold State.decideSwitch at taken
  split at taken
  · cases taken
  · rename_i free
    simp only at taken
    split at taken
    · obtain rfl := Option.some.inj taken
      refine sound.ticks ((sound.fits self).use _ fun slot member => ?_)
        (moves.congr rfl id (List.Subset.refl _) rfl) stands
      have free := List.any_eq_false.mp (Bool.eq_false_iff.mpr free) slot member
      simpa using free
    · obtain rfl := Option.some.inj taken
      exact sound.stop _

/-- The generation moves on while no other session holds it. -/
theorem State.Sound.switchNext (sound : state.Sound) {now : Int}
    (isAt : (state.session self).stage = .ticking loop (.switchNext now)) :
    (state.switchNext self loop now).Sound := by
  obtain ⟨moves, excluded, unshared⟩ := sound.stands isAt
  have moved : State.Sound
    { state with generation := state.generation + 1 } := by
    refine ⟨sound.lawful, sound.apart, sound.within, fun other => ?_⟩
    refine (sound.stage other).keep
      ⟨fun shared => ?_, fun row member _ => member,
      fun _ _ => Iff.rfl⟩
    by_cases isSelf : other = self
    · subst isSelf
      rw [unshared] at shared
      cases shared
    · have apart := (sound.apart self other (Ne.symm isSelf)).advisory excluded
      rw [apart.1] at shared
      cases shared
  have same : (State.session { state with generation := state.generation + 1 }
      self).stage = .ticking loop (.switchNext now) := isAt
  obtain ⟨moves, stands⟩ := moved.stands same
  exact moved.ticks (moved.fits self) moves stands

theorem State.Sound.switchStamp (sound : state.Sound) {now : Int}
    (isAt : (state.session self).stage = .ticking loop (.switchStamp now)) :
    (state.switchStamp self loop now).Sound := by
  obtain ⟨moves, -⟩ := sound.stands isAt
  have stamped : State.Sound { state with switchedAt := some now } :=
    ⟨sound.lawful, sound.apart, sound.within, sound.stage⟩
  exact stamped.ticks (stamped.fits self) moves trivial

/-! ### Moving entries -/

theorem State.Sound.lockShared (sound : state.Sound)
    (isAt : (state.session self).stage = .ticking loop at_)
    (behind : At Columns)
    (stands : AtSound state.rows state.generation
      { (state.session self).current with shared := true } behind)
    (taken : state.lockShared self loop behind = some next) : next.Sound := by
  obtain ⟨moves, -⟩ := sound.stands isAt
  unfold State.lockShared at taken
  split at taken
  · cases taken
  · rename_i free
    obtain rfl := Option.some.inj taken
    exact sound.ticks
      ((sound.fits self).share (Bool.eq_false_iff.mpr free) _)
      (moves.congr rfl (fun _ => rfl) (List.Subset.refl _) rfl) stands

/-- An entry that is still to be moved is nobody else's. -/
theorem MovingSound.alone {moving : Moving Columns} (sound : state.Sound)
    (stands : MovingSound state.rows state.generation
      (state.session self).current moving) {row : Entry Columns}
    (member : row ∈ moving.todo) (other : Fin n) (different : other ≠ self) :
    (state.drafts other).touches Entry.key row.key = false := by
  rw [Bool.eq_false_iff]
  intro touched
  obtain ⟨-, slot, held⟩ := stands.todo row member
  rcases held with locked | locked
  · exact different (sound.lawful.apart other self row.key touched
      (Draft.touches_of_locked locked))
  · have apart := (sound.apart self other different.symm).tables _ locked
    have used := sound.within other row.key touched
    rw [show row.key.1 = moving.slot from slot] at used
    exact used.elim apart.1 apart.2

/-- The entry at the head is deleted. -/
theorem Moves.delete {rows : List (Entry Columns)} {generation : Nat}
    {txn : Txn Columns} {key : Key} (moves : Moves rows generation txn)
    (off : Off generation txn key.1) :
    Moves rows generation
      { txn with draft := txn.draft.delete Entry.key key } where
  deleted := by
    intro name member
    rcases List.mem_cons.mp member with rfl | member
    · exact ⟨off.shared, off.other⟩
    · exact ⟨off.shared, (moves.deleted name member).other⟩
  inserted := fun row member =>
    moves.inserted row (List.mem_filter.mp member).1
  copies := by
    intro row member
    obtain ⟨old, isRow, deleted, same⟩ :=
      moves.copies row (List.mem_filter.mp member).1
    exact ⟨old, isRow, List.mem_cons_of_mem _ deleted, same⟩
  truncated := by
    intro slot member
    obtain ⟨off, locked, emptied⟩ := moves.truncated slot member
    refine ⟨⟨off.shared, off.other⟩, locked, fun row isRow same => ?_⟩
    exact List.mem_cons_of_mem _ (emptied row isRow same)

/-- The entry in hand is inserted. -/
theorem Moves.insert {rows : List (Entry Columns)} {generation : Nat}
    {txn : Txn Columns} {row : Entry Columns}
    (moves : Moves rows generation txn) (shared : txn.shared = true)
    (isRow : row ∈ rows) (deleted : row.key ∈ txn.draft.deleted) {slot : Nat}
    (cur : slot = slotForGeneration generation) (slots : List Nat) :
    Moves rows generation { txn with
      draft := txn.draft.insert { row with slot }, slots } where
  deleted := by
    intro key member
    exact ⟨shared, (moves.deleted key member).other⟩
  inserted := by
    intro entry member
    rcases List.mem_cons.mp member with rfl | member
    · exact ⟨shared, cur⟩
    · exact moves.inserted entry member
  copies := by
    intro entry member
    rcases List.mem_cons.mp member with rfl | member
    · exact ⟨row, isRow, deleted, rfl, rfl⟩
    · exact moves.copies entry member
  truncated := by
    intro slot member
    obtain ⟨off, locked, emptied⟩ := moves.truncated slot member
    exact ⟨⟨off.shared, off.other⟩, locked, emptied⟩

/-- Nothing is in hand any more, whether or not the insert met a conflict. -/
theorem MovingSound.putDown {rows : List (Entry Columns)} {generation : Nat}
    {txn made : Txn Columns} {moving : Moving Columns}
    (stands : MovingSound rows generation txn moving)
    (shared : made.shared = txn.shared) (tables : made.tables = txn.tables)
    (locked : made.draft.locked = txn.draft.locked)
    (deleted : made.draft.deleted = txn.draft.deleted) :
    MovingSound rows generation made { moving with hand := none } where
  off := ⟨by rw [shared]; exact stands.off.shared, stands.off.other⟩
  cur := stands.cur
  todo := by
    rw [locked, tables]
    exact stands.todo
  hand := by
    intro row found
    cases found
  reclaims := by
    rw [tables, deleted]
    exact stands.reclaims

/-- The head is in hand. -/
theorem MovingSound.takeUp {rows : List (Entry Columns)} {generation : Nat}
    {txn : Txn Columns} {moving : Moving Columns} {row : Entry Columns}
    {todo : List (Entry Columns)}
    (stands : MovingSound rows generation txn moving)
    (isTodo : moving.todo = row :: todo) :
    MovingSound rows generation
      { txn with draft := txn.draft.delete Entry.key row.key }
      { moving with todo, hand := some row, moved := moving.moved + 1 } where
  off := ⟨stands.off.shared, stands.off.other⟩
  cur := stands.cur
  todo := by
    intro entry member
    exact stands.todo entry
      (by rw [isTodo]; exact List.mem_cons_of_mem _ member)
  hand := by
    intro entry found
    obtain rfl := Option.some.inj found
    have isRow := (stands.todo row (by rw [isTodo]; exact List.mem_cons_self)).1
    exact ⟨isRow, List.mem_cons_self⟩
  reclaims := by
    intro reclaims
    obtain ⟨locked, left⟩ := stands.reclaims reclaims
    refine ⟨locked, fun entry isRow slot => ?_⟩
    rcases left entry isRow slot with deleted | member
    · exact .inl (List.mem_cons_of_mem _ deleted)
    · rw [isTodo] at member
      rcases List.mem_cons.mp member with rfl | member
      · exact .inl List.mem_cons_self
      · exact .inr member

theorem State.Sound.move (sound : state.Sound) {moving : Moving Columns}
    (isAt : (state.session self).stage = .ticking loop (.moving moving))
    (taken : state.move self loop moving = some next) : next.Sound := by
  obtain ⟨moves, stands⟩ := sound.stands isAt
  have stands : MovingSound state.rows state.generation
      (state.session self).current moving := stands
  unfold State.move at taken
  cases hand : moving.hand with
  | some row =>
      simp only [hand] at taken
      obtain ⟨made, inserted, rfl⟩ := Option.map_eq_some_iff.mp taken
      obtain ⟨fits, inserts⟩ := sound.insertEntry inserted
      obtain ⟨isRow, deleted⟩ := stands.hand row hand
      have fits : Fits (state.paged moving.cur) self made :=
        ⟨fits.lawful, fits.beside, fits.within⟩
      refine (sound.paged moving.cur).ticks fits ?_ ?_
      · cases inserts with
        | conflict => exact moves.congr rfl id (List.Subset.refl _) rfl
        | insert =>
            exact moves.insert stands.off.shared isRow deleted stands.cur _
      · cases inserts with
        | conflict => exact stands.putDown rfl rfl rfl rfl
        | insert => exact stands.putDown rfl rfl rfl rfl
  | none =>
      cases isTodo : moving.todo with
      | cons row todo =>
          simp only [hand, isTodo, Option.some.injEq] at taken
          subst taken
          have member : row ∈ moving.todo := by
            rw [isTodo]
            exact List.mem_cons_self
          obtain ⟨-, slot, held⟩ := stands.todo row member
          have off : Off state.generation (state.session self).current
              row.key.1 := by
            rw [show row.key.1 = moving.slot from slot]
            exact stands.off
          have lawful := sound.lawful.delete fun other different =>
            stands.alone sound member other different
          refine sound.ticks ((sound.fits self).draft lawful ?_)
            (moves.delete off) (stands.takeUp isTodo)
          intro name touched
          rcases Draft.touches_delete touched with rfl | touched
          · rcases held with locked | locked
            · exact sound.within self row.key (Draft.touches_of_locked locked)
            · rw [← slot] at locked
              exact .inr locked
          · exact sound.within self name touched
      | nil =>
          simp only [hand, isTodo] at taken
          cases reclaims : moving.reclaims with
          | none =>
              simp only [reclaims, Option.some.injEq] at taken
              subst taken
              exact sound.goesOn moves trivial
          | some seen =>
              simp only [reclaims, Option.some.injEq] at taken
              subst taken
              obtain ⟨locked, left⟩ := stands.reclaims (by simp [reclaims])
              refine sound.goesOn moves
                ⟨stands.off, locked, fun row isRow slot => ?_⟩
              rcases left row isRow slot with deleted | member
              · exact deleted
              · rw [isTodo] at member
                cases member

/-! ### `drain` -/

theorem State.Sound.drainRead (sound : state.Sound)
    (isAt : (state.session self).stage = .ticking loop (.drainRead slot)) :
    (state.drainRead self loop slot).Sound := by
  obtain ⟨moves, shared⟩ := sound.stands isAt
  unfold State.drainRead
  simp only
  split
  · exact sound.goesOn moves trivial
  · rename_i different
    exact sound.goesOn moves ⟨⟨shared, different⟩, rfl⟩

/-- A row that the session sees in a slot it has inserted nothing in. -/
theorem mem_inSlot {row : Entry Columns}
    (moves : Moves state.rows state.generation (state.session self).current)
    (off : Off state.generation (state.session self).current slot)
    (member : row ∈ state.inSlot self slot) : row ∈ state.rows ∧
      row.slot = slot := by
  obtain ⟨viewed, same⟩ := List.mem_filter.mp member
  have same : row.slot = slot := by simpa using same
  rcases Draft.mem_view.mp viewed with ⟨isRow, -⟩ | inserted
  · exact ⟨isRow, same⟩
  · have current := (moves.inserted row inserted).2
    rw [same] at current
    exact absurd current off.other

theorem State.Sound.pick (sound : state.Sound) {jobs : List Nat}
    (taken : state.pick self jobs = some next) : next.Sound := by
  unfold State.pick at taken
  split at taken
  · rename_i loop slot cur isAt
    obtain ⟨moves, off, current⟩ := sound.stands isAt
    simp only at taken
    split at taken
    · cases taken
    · rename_i free
      simp only [Bool.or_eq_true, not_or, Bool.not_eq_true] at free
      obtain ⟨⟨slotFree, curFree⟩, -⟩ := free
      obtain rfl := Option.some.inj taken
      have picked {row : Entry Columns}
          (member : row ∈ (state.available self slot).filter
            fun row => row.job ∈ jobs) :
          row ∈ state.rows ∧ row.slot = slot ∧ ∀ other, other ≠ self →
            (state.drafts other).touches Entry.key row.key = false := by
        obtain ⟨viewed, alone⟩ :=
          List.mem_filter.mp (List.mem_filter.mp member).1
        obtain ⟨isRow, same⟩ := mem_inSlot moves off viewed
        refine ⟨isRow, same, fun other different => ?_⟩
        exact not_others (by simpa using alone) different
      have used := (sound.fits self).use [slot, cur] (by
        intro name member
        rcases List.mem_cons.mp member with rfl | member
        · exact slotFree
        · rw [List.mem_singleton.mp member]
          exact curFree)
      refine sound.ticks (used.draft (sound.lawful.lock ?_ ?_) ?_) ?_ ?_
      · intro key member
        obtain ⟨row, chosen, rfl⟩ := List.mem_map.mp member
        exact .inl (List.mem_map.mpr ⟨row, (picked chosen).1, rfl⟩)
      · intro key member
        obtain ⟨row, chosen, rfl⟩ := List.mem_map.mp member
        exact (picked chosen).2.2
      · intro key touched
        rcases Draft.touches_lock touched with member | touched
        · obtain ⟨row, chosen, rfl⟩ := List.mem_map.mp member
          rw [show row.key.1 = slot from (picked chosen).2.1]
          exact .inl List.mem_cons_self
        · exact used.within key touched
      · exact ⟨fun key member => ⟨off.shared, (moves.deleted key member).other⟩,
          moves.inserted, moves.copies, fun name member => by
            obtain ⟨away, locked, emptied⟩ := moves.truncated name member
            exact ⟨⟨away.shared, away.other⟩, locked, emptied⟩⟩
      · refine ⟨⟨off.shared, off.other⟩, current, ?_, ?_, ?_⟩
        · intro row member
          obtain ⟨isRow, same, -⟩ := picked member
          refine ⟨isRow, same, .inl ?_⟩
          exact List.mem_append_left _ (List.mem_map.mpr ⟨row, member, rfl⟩)
        · intro row found
          cases found
        · intro reclaims
          exact absurd rfl reclaims
  · cases taken

theorem State.Sound.drainEnd (sound : state.Sound) :
    (state.drainEnd self loop moved).Sound := by
  unfold State.drainEnd
  simp only
  split
  · exact sound.stopCommit _
  · exact sound.again _

/-! ### `reclaim` -/

theorem State.Sound.reclaimRead (sound : state.Sound)
    (isAt : (state.session self).stage =
      .ticking loop (.reclaimRead seen slot)) :
    (state.reclaimRead self loop seen slot).Sound := by
  obtain ⟨moves, shared⟩ := sound.stands isAt
  unfold State.reclaimRead
  simp only
  split
  · exact sound.stopCommit _
  · rename_i different
    exact sound.goesOn moves ⟨⟨shared, different⟩, rfl⟩

theorem State.Sound.lockTable (sound : state.Sound)
    (isAt : (state.session self).stage =
      .ticking loop (.reclaimTable seen slot cur)) :
    (state.lockTable self loop seen slot cur).Sound := by
  obtain ⟨moves, off, current⟩ := sound.stands isAt
  unfold State.lockTable
  split
  · exact sound.stop _
  · rename_i free
    have free := Bool.eq_false_iff.mpr free
    exact sound.ticks ((sound.fits self).lockTable free)
      (moves.congr rfl id (List.subset_cons_self _ _) rfl)
      ⟨⟨off.shared, off.other⟩, current, List.mem_cons_self⟩

theorem State.Sound.reclaimMove (sound : state.Sound)
    (isAt : (state.session self).stage =
      .ticking loop (.reclaimMove seen slot cur))
    (taken : state.reclaimMove self loop seen slot cur = some next) :
    next.Sound := by
  obtain ⟨moves, off, current, locked⟩ := sound.stands isAt
  unfold State.reclaimMove at taken
  split at taken
  · cases taken
  · rename_i curFree
    obtain rfl := Option.some.inj taken
    have slotFree : state.blocked self slot = false := by
      rw [Bool.eq_false_iff]
      intro held
      obtain ⟨other, -, holds⟩ := List.any_eq_true.mp held
      simp only [Bool.and_eq_true, decide_eq_true_eq] at holds
      obtain ⟨different, member⟩ := holds
      exact ((sound.apart self other (Ne.symm different)).tables slot locked).2
        member
    have used := (sound.fits self).use [slot, cur] (by
      intro name member
      rcases List.mem_cons.mp member with rfl | member
      · exact slotFree
      · rw [List.mem_singleton.mp member]
        exact Bool.eq_false_iff.mpr curFree)
    refine sound.ticks used (moves.congr rfl id (List.Subset.refl _) rfl)
      ⟨⟨off.shared, off.other⟩, current, ?_, ?_, ?_⟩
    · intro row member
      obtain ⟨isRow, same⟩ := mem_inSlot moves off member
      exact ⟨isRow, same, .inr locked⟩
    · intro row found
      cases found
    · intro _
      refine ⟨locked, fun row isRow same => ?_⟩
      by_cases deleted : row.key ∈ (state.session self).current.draft.deleted
      · exact .inl deleted
      · refine .inr (List.mem_filter.mpr ⟨?_, by simpa using same⟩)
        exact Draft.mem_view.mpr (.inl ⟨isRow, deleted⟩)

theorem State.Sound.truncate (sound : state.Sound)
    (isAt : (state.session self).stage =
      .ticking loop (.reclaimTruncate seen slot moved)) :
    (state.truncate self loop seen slot moved).Sound := by
  obtain ⟨moves, off, locked, emptied⟩ := sound.stands isAt
  unfold State.truncate
  split
  · exact sound.stopCommit _
  · refine sound.ticks
      ((sound.fits self).congr rfl rfl rfl rfl rfl) ?_ trivial
    refine ⟨fun key member => ⟨off.shared, (moves.deleted key member).other⟩,
      moves.inserted, moves.copies, fun name member => ?_⟩
    rcases List.mem_cons.mp member with rfl | member
    · exact ⟨⟨off.shared, off.other⟩, locked, emptied⟩
    · obtain ⟨away, held, gone⟩ := moves.truncated name member
      exact ⟨⟨away.shared, away.other⟩, held, gone⟩

theorem State.Sound.reclaimStamp (sound : state.Sound)
    (isAt : (state.session self).stage = .ticking loop .reclaimStamp) :
    (state.reclaimStamp self loop).Sound := by
  obtain ⟨moves, -⟩ := sound.stands isAt
  have stamped : State.Sound { state with reclaimedAt := some state.clock } :=
    ⟨sound.lawful, sound.apart, sound.within, sound.stage⟩
  exact stamped.goesOn moves trivial

theorem State.Sound.step (sound : state.Sound)
    (taken : state.step self = some next) : next.Sound := by
  unfold State.step at taken
  cases stage : (state.session self).stage with
  | resting => simp [stage] at taken
  | ticking loop at_ =>
      simp only [stage] at taken
      cases at_ with
      | readState => exact sound.beginRound taken
      | switchLock seen =>
          obtain rfl := Option.some.inj taken
          exact sound.tryLock stage
      | switchDecide => exact sound.decideSwitch stage taken
      | switchNext now =>
          obtain rfl := Option.some.inj taken
          exact sound.switchNext stage
      | switchStamp now =>
          obtain rfl := Option.some.inj taken
          exact sound.switchStamp stage
      | switchEnd =>
          obtain rfl := Option.some.inj taken
          exact sound.again _
      | drainLock slot =>
          exact sound.lockShared stage (.drainRead slot) rfl taken
      | drainRead slot =>
          obtain rfl := Option.some.inj taken
          exact sound.drainRead stage
      | drainMove slot cur => cases taken
      | moving moving => exact sound.move stage taken
      | drainEnd moved =>
          obtain rfl := Option.some.inj taken
          exact sound.drainEnd
      | reclaimLock seen slot =>
          exact sound.lockShared stage (.reclaimRead seen slot) rfl taken
      | reclaimRead seen slot =>
          obtain rfl := Option.some.inj taken
          exact sound.reclaimRead stage
      | reclaimTable seen slot cur =>
          obtain rfl := Option.some.inj taken
          exact sound.lockTable stage
      | reclaimMove seen slot cur => exact sound.reclaimMove stage taken
      | reclaimTruncate seen slot moved =>
          obtain rfl := Option.some.inj taken
          exact sound.truncate stage
      | reclaimStamp =>
          obtain rfl := Option.some.inj taken
          exact sound.reclaimStamp stage
      | reclaimEnd =>
          obtain rfl := Option.some.inj taken
          exact sound.again _

theorem State.Sound.tick (sound : state.Sound) {config : RotationConfig}
    (taken : state.tick self config = some next) : next.Sound := by
  unfold State.tick at taken
  simp only at taken
  split at taken
  · rename_i closed
    obtain rfl := Option.some.inj taken
    refine sound.put ?_ ?_
    · exact (sound.fits self).congr rfl rfl rfl rfl rfl
    · have current : (state.session self).current = {} := by
        rw [Session.current, closed]
        rfl
      refine ⟨?_, trivial⟩
      exact current ▸ Moves.empty
  · cases taken

end

/-! ## Runs -/

section

variable {state next start : State Columns n}

theorem State.Sound.act (sound : state.Sound) {action : RingAction Columns n}
    (taken : act state action = some next) : next.Sound := by
  cases action with
  | elapse seconds =>
      obtain rfl := Option.some.inj taken
      exact ⟨sound.lawful, sound.apart, sound.within, sound.stage⟩
  | plan self enabled present => exact sound.plan taken
  | readGeneration self => exact sound.readGeneration taken
  | insert self job columns => exact sound.insert taken
  | scan self => exact sound.scan taken
  | lock self key => exact sound.lockEntry taken
  | delete self key => exact sound.deleteEntry taken
  | update self key columns => exact sound.updateEntry taken
  | commit self =>
      cases isAt : (state.session self).stage with
      | ticking loop at_ => simp [Rotation.act, isAt] at taken
      | resting =>
          simp only [Rotation.act, isAt, Option.some.injEq] at taken
          subst taken
          exact sound.commitPut rfl (rfl : ({} : Txn Columns).truncated = [])
  | tick self config => exact sound.tick taken
  | pick self jobs => exact sound.pick taken
  | step self => exact sound.step taken
  | fail self =>
      obtain rfl := Option.some.inj taken
      exact sound.stop _
  | vacuum slot =>
      simp only [Rotation.act, State.vacuum] at taken
      split at taken
      · cases taken
      · obtain rfl := Option.some.inj taken
        exact ⟨sound.lawful, sound.apart, sound.within, sound.stage⟩

/-- No transaction is open, no tick is on its way, and an entry is there
once. -/
structure State.Begins (state : State Columns n) : Prop where
  session : ∀ self, state.session self = {}
  unique : (state.rows.map Entry.key).Nodup

theorem State.Begins.sound (begins : state.Begins) : state.Sound := by
  have current (self : Fin n) : (state.session self).current = {} := by
    rw [begins.session self]
    rfl
  refine ⟨⟨begins.unique, ?_, ?_, ?_, ?_⟩, ?_, ?_, ?_⟩
  · intro one other key touched
    rw [State.drafts, current, Draft.touches_empty] at touched
    cases touched
  · intro self key member
    rw [State.drafts, current] at member
    cases member
  · intro self
    rw [State.drafts, current]
    exact List.nodup_nil
  · intro self row member
    rw [State.drafts, current] at member
    cases member
  · intro one other _
    rw [current, current]
    refine ⟨fun _ => ⟨rfl, rfl⟩, fun slot member => ?_⟩
    cases member
  · intro self key touched
    rw [current, Draft.touches_empty] at touched
    cases touched
  · intro self
    rw [begins.session self]
    exact (rfl : ({} : Txn Columns).truncated = [])

theorem sound_of_reaches
    {allowed : State Columns n → RingAction Columns n → Prop}
    (begins : start.Begins) (reached : Reaches act allowed start state) :
    state.Sound :=
  reached.invariant begins.sound fun _ _ _ sound _ taken => sound.act taken

end

end Sqlery.Rotation
