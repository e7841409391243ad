import Sqlery.Partitioning.Reclaim

/-!
# Reclaim drops no job

A transaction that has dropped a partition holds its ACCESS EXCLUSIVE lock, and
found it empty under it: no other transaction has a change in the partition, and
none gets one in before the drop is committed.  So the commit takes no row with
it but those that the changes of the transaction itself delete.
-/

namespace Sqlery.Partitioning.Reclaim

open Calendar (Zone)

variable {Row : Type} {n : Nat}

/-! ## What others leave as it is -/

/-- The clock goes on and partitions go, but none that the transaction has
locked, and nothing happens in those. -/
structure Keeps (before after : Database Row) (txn : Option (Txn Row)) :
    Prop where
  clock : before.clock ≤ after.clock
  catalog : after.catalog ⊆ before.catalog
  locked : ∀ current, txn = some current → ∀ name,
    .child name ∈ current.exclusive → after.rows name = before.rows name ∧
      ∀ child ∈ before.catalog, child.name = name → child ∈ after.catalog

theorem keeps_later {database : Database Row} (elapsed : Nat)
    (current : Option (Txn Row)) :
    Keeps database (database.later elapsed) current where
  clock := by
    simp only [Database.later]
    omega
  catalog := List.Subset.refl _
  locked := fun _ _ _ _ => ⟨rfl, fun _ member _ => member⟩

/-! ## Where the calls stand -/

structure CallSound (database : Database Row) (call : Call) : Prop where
  grace : minute ≤ call.grace
  now : call.now ≤ database.clock

/-- While a partition of the name is there, it ends at the time. -/
def Known (database : Database Row) (entry : Text × Int) : Prop :=
  ∀ child ∈ database.catalog, child.name = entry.1 →
    ∃ lower, child.bound = .range lower (.time entry.2)

structure ItemSound (zone : Zone) (database : Database Row) (call : Call)
    (item : Item) : Prop where
  called : CallSound database call
  known : Known database (item.name, item.upper)
  past : item.upper < cutoff zone call.now call.grace
  todo : ∀ entry ∈ item.todo, Known database entry

/-- The block has only taken locks and dropped partitions since its begin. -/
structure Extends (item : Item) (saved : Option (Txn Row)) (txn : Txn Row) :
    Prop where
  begun : saved = none → txn.changes = []
  extended : ∀ base, saved = some base →
    base.startedAt = txn.startedAt ∧ base.changes = txn.changes ∧
      base.shared = txn.shared ∧ base.exclusive ⊆ txn.exclusive ∧
      base.drops ⊆ txn.drops ∧
      (∀ drop ∈ base.drops, .child drop.name ∈ base.exclusive) ∧
      base.drops? item.name = false

/-- Under the lock. -/
structure BlockSound (zone : Zone) (database : Database Row) (call : Call)
    (item : Item) (saved : Option (Txn Row)) (txn : Txn Row) : Prop where
  chosen : ItemSound zone database call item
  extended : Extends item saved txn
  locked : .child item.name ∈ txn.exclusive
  there : ∃ child ∈ database.catalog, child.name = item.name

/-- The partition is not dropped yet. -/
structure LockSound (zone : Zone) (database : Database Row) (call : Call)
    (item : Item) (saved : Option (Txn Row)) (txn : Txn Row) : Prop where
  block : BlockSound zone database call item saved txn
  undropped : txn.drops? item.name = false

section

variable {zone : Zone} {before after : Database Row}
variable {txn : Option (Txn Row)}

theorem CallSound.keep {call : Call} (sound : CallSound before call)
    (keeps : Keeps before after txn) : CallSound after call where
  grace := sound.grace
  now := le_trans sound.now keeps.clock

theorem Known.keep {entry : Text × Int} (known : Known before entry)
    (keeps : Keeps before after txn) : Known after entry :=
  fun child member named => known child (keeps.catalog member) named

theorem ItemSound.keep {call : Call} {item : Item}
    (sound : ItemSound zone before call item)
    (keeps : Keeps before after txn) : ItemSound zone after call item where
  called := sound.called.keep keeps
  known := sound.known.keep keeps
  past := sound.past
  todo := fun entry member => (sound.todo entry member).keep keeps

theorem BlockSound.keep {call : Call} {item : Item} {saved : Option (Txn Row)}
    {current : Txn Row} (sound : BlockSound zone before call item saved current)
    (keeps : Keeps before after (some current)) :
    BlockSound zone after call item saved current where
  chosen := sound.chosen.keep keeps
  extended := sound.extended
  locked := sound.locked
  there := by
    obtain ⟨child, member, named⟩ := sound.there
    have kept := (keeps.locked current rfl item.name sound.locked).2
    exact ⟨child, kept child member named, named⟩

theorem LockSound.keep {call : Call} {item : Item} {saved : Option (Txn Row)}
    {current : Txn Row} (sound : LockSound zone before call item saved current)
    (keeps : Keeps before after (some current)) :
    LockSound zone after call item saved current where
  block := sound.block.keep keeps
  undropped := sound.undropped

end

section

variable {txn : Txn Row} {name : Text}

theorem drops?_iff : txn.drops? name = true ↔
    ∃ drop ∈ txn.drops, drop.name = name := by
  simp [Txn.drops?]

theorem holds_iff {relation : Relation} : txn.holds relation = true ↔
    relation ∈ txn.shared ∨ relation ∈ txn.exclusive := by
  simp [Txn.holds]

theorem not_holds_iff {relation : Relation} : txn.holds relation = false ↔
    relation ∉ txn.shared ∧ relation ∉ txn.exclusive := by
  simp [Txn.holds]

end

section

variable {state : State Row n} {self other : Fin n} {relation : Relation}
variable {theirs : Txn Row}

theorem not_held (free : state.othersHold self relation = false)
    (different : other ≠ self)
    (found : (state.session other).txn = some theirs) :
    theirs.holds relation = false := by
  have alone := List.any_eq_false.mp free other (List.mem_finRange other)
  simpa [different, found] using alone

theorem not_excluded (free : state.othersExclude self relation = false)
    (different : other ≠ self)
    (found : (state.session other).txn = some theirs) :
    relation ∉ theirs.exclusive := by
  have alone := List.any_eq_false.mp free other (List.mem_finRange other)
  simpa [different, found] using alone

theorem update_datetimes {sessions : Fin n → Session Row}
    {session : Session Row}
    (same : session.datetimes = (sessions self).datetimes) (other : Fin n) :
    (Function.update sessions self session other).datetimes =
      (sessions other).datetimes := by
  by_cases isSelf : other = self
  · subst isSelf
    rw [Function.update_self]
    exact same
  · rw [Function.update_of_ne isSelf]

end

variable [DecidableEq Row]

/-! ## Views -/

section

variable {txn other : Txn Row} {name : Text} {rows : List Row}

theorem apply_of_ne {change : Change Row} (different : change.name ≠ name) :
    Change.apply name rows change = rows := by
  cases change with
  | insert target row => exact if_neg different
  | delete target row => exact if_neg different

theorem view_of_unchanged
    (unchanged : ∀ change ∈ txn.changes, change.name ≠ name) :
    txn.view name rows = rows := by
  have kept : ∀ (changes : List (Change Row)) (rows : List Row),
      (∀ change ∈ changes, change.name ≠ name) →
      changes.foldl (Change.apply name) rows = rows := by
    intro changes
    induction changes with
    | nil =>
        intro rows _
        rfl
    | cons change changes ih =>
        intro rows others
        have different := others change List.mem_cons_self
        rw [List.foldl_cons, apply_of_ne different]
        exact ih rows fun change member =>
          others change (List.mem_cons_of_mem _ member)
  exact kept txn.changes rows unchanged

theorem view_congr (same : txn.changes = other.changes) :
    txn.view name rows = other.view name rows := by
  rw [Txn.view, Txn.view, same]

end

/-! ## What transactions have done -/

/-- ACCESS EXCLUSIVE of the one excludes the locks of the other. -/
def Txn.Excludes (txn other : Txn Row) : Prop :=
  ∀ relation ∈ txn.exclusive, other.holds relation = false

/-- The partition ends at the time. -/
def Ends (database : Database Row) (name : Text) (upper : Int) : Prop :=
  ∃ lower, ⟨name, .range lower (.time upper)⟩ ∈ database.catalog

/-- The drop is that of a partition past its grace, which was empty and is. -/
structure Drained (zone : Zone) (database : Database Row) (txn : Txn Row)
    (drop : Drop) : Prop where
  locked : .child drop.name ∈ txn.exclusive
  ends : Ends database drop.name drop.upper
  past : drop.upper < cutoff zone drop.now drop.grace
  grace : minute ≤ drop.grace
  now : drop.now ≤ database.clock
  empty : txn.view drop.name (database.rows drop.name) = []

structure TxnSound (database : Database Row) (session : Fin n → Session Row)
    (holder : Fin n) (txn : Txn Row) : Prop where
  started : txn.startedAt ≤ database.clock
  guarded : ∀ change ∈ txn.changes, .child change.name ∈ txn.shared
  alone : ∀ other, other ≠ holder →
    ∀ theirs, (session other).txn = some theirs →
    txn.Excludes theirs ∧ theirs.Excludes txn
  drained : ∀ drop ∈ txn.drops,
    Drained (session holder).datetimes.zone database txn drop

/-! ## The invariant -/

def StageSound (zone : Zone) (database : Database Row)
    (txn : Option (Txn Row)) : Stage Row → Prop
  | .resting => True
  | .acquired grace => minute ≤ grace
  | .clear grace => minute ≤ grace
  | .timed call => CallSound database call
  | .each call todo =>
      CallSound database call ∧ ∀ entry ∈ todo, Known database entry
  | .look call item => ItemSound zone database call item
  | .take call item => ItemSound zone database call item
  | .recheck call item saved =>
      ∃ current, txn = some current ∧
        LockSound zone database call item saved current
  | .detach call item saved =>
      ∃ current, txn = some current ∧
        LockSound zone database call item saved current ∧
        current.view item.name (database.rows item.name) = []
  | .drop call item saved =>
      ∃ current, txn = some current ∧
        LockSound zone database call item saved current ∧
        current.view item.name (database.rows item.name) = []
  | .leave call item saved =>
      ∃ current, txn = some current ∧
        BlockSound zone database call item saved current

structure SessionSound (database : Database Row)
    (sessions : Fin n → Session Row) (holder : Fin n) (session : Session Row) :
    Prop where
  txn : ∀ txn, session.txn = some txn → TxnSound database sessions holder txn
  stage : StageSound session.datetimes.zone database session.txn session.stage

structure Sound (database : Database Row) (sessions : Fin n → Session Row) :
    Prop where
  names : (database.catalog.map (·.name)).Nodup
  session : ∀ self, SessionSound database sessions self (sessions self)

/-! ## Others' steps -/

section

variable {zone : Zone} {before after : Database Row}
variable {txn : Option (Txn Row)} {current : Txn Row} {call : Call}
  {item : Item}
variable {saved : Option (Txn Row)}

theorem Drained.keep {drop : Drop} (drained : Drained zone before current drop)
    (keeps : Keeps before after (some current)) :
    Drained zone after current drop := by
  obtain ⟨rows, kept⟩ := keeps.locked current rfl drop.name drained.locked
  obtain ⟨lower, member⟩ := drained.ends
  exact {
    locked := drained.locked
    ends := ⟨lower, kept _ member rfl⟩
    past := drained.past
    grace := drained.grace
    now := le_trans drained.now keeps.clock
    empty := by
      rw [rows]
      exact drained.empty }

theorem StageSound.keep {stage : Stage Row}
    (sound : StageSound zone before txn stage)
    (keeps : Keeps before after txn) : StageSound zone after txn stage := by
  cases stage with
  | resting => trivial
  | acquired grace => exact sound
  | clear grace => exact sound
  | timed call => exact CallSound.keep sound keeps
  | each call todo =>
      obtain ⟨called, known⟩ := sound
      exact ⟨called.keep keeps,
        fun entry member => (known entry member).keep keeps⟩
  | look call item => exact ItemSound.keep sound keeps
  | take call item => exact ItemSound.keep sound keeps
  | recheck call item saved =>
      obtain ⟨current, rfl, sound⟩ := sound
      exact ⟨current, rfl, sound.keep keeps⟩
  | detach call item saved =>
      obtain ⟨current, rfl, sound, empty⟩ := sound
      have same := (keeps.locked current rfl item.name sound.block.locked).1
      exact ⟨current, rfl, sound.keep keeps, by rw [same]; exact empty⟩
  | drop call item saved =>
      obtain ⟨current, rfl, sound, empty⟩ := sound
      have same := (keeps.locked current rfl item.name sound.block.locked).1
      exact ⟨current, rfl, sound.keep keeps, by rw [same]; exact empty⟩
  | leave call item saved =>
      obtain ⟨current, rfl, sound⟩ := sound
      exact ⟨current, rfl, sound.keep keeps⟩

end

section

variable {database : Database Row} {sessions : Fin n → Session Row}
variable {self other : Fin n} {txn theirs : Txn Row} {name : Text}

/-- A transaction has nothing to do with a partition that another has locked. -/
theorem TxnSound.undropped (sound : TxnSound database sessions self txn)
    (excludes : theirs.Excludes txn) (locked : .child name ∈ theirs.exclusive) :
    txn.drops? name = false := by
  have free := excludes _ locked
  cases dropped : txn.drops? name with
  | false => rfl
  | true =>
      obtain ⟨drop, member, rfl⟩ := drops?_iff.mp dropped
      have held := holds_iff.mpr (.inr (sound.drained drop member).locked)
      rw [held] at free
      cases free

theorem TxnSound.unchanged (sound : TxnSound database sessions self txn)
    (excludes : theirs.Excludes txn) (locked : .child name ∈ theirs.exclusive) :
    ∀ change ∈ txn.changes, change.name ≠ name := by
  rintro change member rfl
  have free := excludes _ locked
  have held := holds_iff.mpr (.inl (sound.guarded change member))
  rw [held] at free
  cases free

/-- The commit of another transaction. -/
theorem keeps_apply (sound : TxnSound database sessions self txn)
    {current : Option (Txn Row)}
    (excluded : ∀ theirs, current = some theirs → theirs.Excludes txn) :
    Keeps database (database.apply txn) current where
  clock := le_rfl
  catalog := List.filter_sublist.subset
  locked := by
    intro theirs found name locked
    have excludes := excluded theirs found
    have undropped := sound.undropped excludes locked
    have unchanged := sound.unchanged excludes locked
    constructor
    · simp only [Database.apply, undropped, Bool.false_eq_true, if_false]
      exact view_of_unchanged unchanged
    · rintro child member rfl
      simp [Database.apply, undropped, member]

theorem TxnSound.keep {after : Database Row}
    (sound : TxnSound database sessions self txn)
    (keeps : Keeps database after (some txn)) :
    TxnSound after sessions self txn where
  started := le_trans sound.started keeps.clock
  guarded := sound.guarded
  alone := sound.alone
  drained := fun drop member => (sound.drained drop member).keep keeps

/-- What another session holds now is compatible as well. -/
theorem TxnSound.update {session : Session Row}
    (sound : TxnSound database sessions other txn)
    (same : session.datetimes = (sessions self).datetimes)
    (apart : ∀ theirs, session.txn = some theirs →
      txn.Excludes theirs ∧ theirs.Excludes txn) :
    TxnSound database (Function.update sessions self session) other txn where
  started := sound.started
  guarded := sound.guarded
  alone := by
    intro third different theirs found
    by_cases isSelf : third = self
    · subst isSelf
      rw [Function.update_self] at found
      exact apart theirs found
    · rw [Function.update_of_ne isSelf] at found
      exact sound.alone third different theirs found
  drained := by
    rw [update_datetimes same]
    exact sound.drained

/-- A session takes a step that the others do not see. -/
theorem Sound.put {session : Session Row} (sound : Sound database sessions)
    (same : session.datetimes = (sessions self).datetimes)
    (steps : SessionSound database sessions self session) :
    Sound database (Function.update sessions self session) where
  names := sound.names
  session := by
    intro other
    by_cases isSelf : other = self
    · subst isSelf
      rw [Function.update_self]
      refine ⟨fun txn found => ?_, steps.stage⟩
      have mine := steps.txn txn found
      exact {
        started := mine.started
        guarded := mine.guarded
        alone := by
          intro third different theirs held
          rw [Function.update_of_ne different] at held
          exact mine.alone third different theirs held
        drained := by
          rw [update_datetimes same]
          exact mine.drained }
    · rw [Function.update_of_ne isSelf]
      have theirs := sound.session other
      refine ⟨fun txn found => ?_, theirs.stage⟩
      refine (theirs.txn txn found).update same fun mine held => ?_
      exact ((steps.txn mine held).alone other isSelf txn found).symm

/-- A session commits. -/
theorem Sound.commit {session : Session Row} (sound : Sound database sessions)
    (found : (sessions self).txn = some txn) (ended : session.txn = none)
    (same : session.datetimes = (sessions self).datetimes)
    (stage : StageSound session.datetimes.zone database none session.stage) :
    Sound (database.apply txn) (Function.update sessions self session) := by
  have committed := (sound.session self).txn txn found
  refine ⟨?_, ?_⟩
  · exact sound.names.sublist (List.filter_sublist.map _)
  · intro other
    by_cases isSelf : other = self
    · subst isSelf
      rw [Function.update_self]
      refine ⟨fun txn held => ?_, ?_⟩
      · rw [ended] at held
        cases held
      · rw [ended]
        exact stage.keep (keeps_apply committed (fun _ held => by cases held))
    · rw [Function.update_of_ne isSelf]
      have theirs := sound.session other
      have excluded (current : Txn Row)
          (held : (sessions other).txn = some current) : current.Excludes txn :=
        (committed.alone other isSelf current held).2
      refine ⟨fun current held => ?_, ?_⟩
      · have keeps : Keeps database (database.apply txn) (some current) :=
          keeps_apply committed fun theirs same => by
            cases same
            exact excluded current held
        have kept := (theirs.txn current held).keep keeps
        refine kept.update same fun mine given => ?_
        rw [ended] at given
        cases given
      · exact theirs.stage.keep (keeps_apply committed excluded)

theorem Sound.later (sound : Sound database sessions) (elapsed : Nat) :
    Sound (database.later elapsed) sessions where
  names := sound.names
  session := fun self => {
    txn := fun txn found =>
      ((sound.session self).txn txn found).keep (keeps_later elapsed _)
    stage := (sound.session self).stage.keep (keeps_later elapsed _) }

end

/-! ## Locks -/

section

variable {state : State Row n} {self other : Fin n} {relation : Relation}
variable {txn theirs : Txn Row}

/-- The drop is as well that of a transaction with the same changes. -/
theorem Drained.transfer {zone : Zone} {database : Database Row} {drop : Drop}
    (drained : Drained zone database txn drop)
    (same : theirs.changes = txn.changes)
    (locked : .child drop.name ∈ theirs.exclusive) :
    Drained zone database theirs drop where
  locked := locked
  ends := drained.ends
  past := drained.past
  grace := drained.grace
  now := drained.now
  empty := by
    rw [view_congr same]
    exact drained.empty

theorem TxnSound.begin : TxnSound state.database state.session self
    { startedAt := state.database.clock } where
  started := le_rfl
  guarded := by simp
  alone := by
    intro other _ theirs _
    refine ⟨by simp [Txn.Excludes], fun relation _ => ?_⟩
    simp [Txn.holds]
  drained := by simp

theorem TxnSound.share
    (sound : TxnSound state.database state.session self txn)
    (free : state.othersExclude self relation = false) :
    TxnSound state.database state.session self (txn.share relation) where
  started := sound.started
  guarded := fun change member =>
    List.mem_cons_of_mem _ (sound.guarded change member)
  alone := by
    intro other different theirs found
    obtain ⟨mine, other's⟩ := sound.alone other different theirs found
    refine ⟨mine, fun locked member => ?_⟩
    have unheld := other's locked member
    have isOther : locked ≠ relation := by
      rintro rfl
      exact not_excluded free different found member
    rw [not_holds_iff] at unheld ⊢
    refine ⟨fun held => ?_, unheld.2⟩
    rcases List.mem_cons.mp held with same | held
    · exact isOther same
    · exact unheld.1 held
  drained := fun drop member =>
    (sound.drained drop member).transfer rfl (sound.drained drop member).locked

theorem TxnSound.exclude
    (sound : TxnSound state.database state.session self txn)
    (free : state.othersHold self relation = false) :
    TxnSound state.database state.session self (txn.exclude relation) where
  started := sound.started
  guarded := sound.guarded
  alone := by
    intro other different theirs found
    obtain ⟨mine, other's⟩ := sound.alone other different theirs found
    have unheld := not_held free different found
    constructor
    · intro locked member
      rcases List.mem_cons.mp member with rfl | member
      · exact unheld
      · exact mine locked member
    · intro locked member
      have isOther : locked ≠ relation := by
        rintro rfl
        rw [holds_iff.mpr (.inr member)] at unheld
        cases unheld
      have unheld := other's locked member
      rw [not_holds_iff] at unheld ⊢
      refine ⟨unheld.1, fun held => ?_⟩
      rcases List.mem_cons.mp held with same | held
      · exact isOther same
      · exact unheld.2 held
  drained := fun drop member => (sound.drained drop member).transfer rfl
    (List.mem_cons_of_mem _ (sound.drained drop member).locked)

theorem TxnSound.change {change : Change Row}
    (sound : TxnSound state.database state.session self txn)
    (shared : .child change.name ∈ txn.shared)
    (undropped : txn.drops? change.name = false) :
    TxnSound state.database state.session self (txn.change change) where
  started := sound.started
  guarded := by
    intro made member
    rcases List.mem_append.mp member with member | member
    · exact sound.guarded made member
    · rw [List.mem_singleton.mp member]
      exact shared
  alone := sound.alone
  drained := by
    intro drop (member : drop ∈ txn.drops)
    have drained := sound.drained drop member
    have different : change.name ≠ drop.name := by
      intro same
      have dropped := drops?_iff.mpr ⟨drop, member, same.symm⟩
      rw [undropped] at dropped
      cases dropped
    exact {
      locked := drained.locked
      ends := drained.ends
      past := drained.past
      grace := drained.grace
      now := drained.now
      empty := by
        have empty := drained.empty
        rw [Txn.view, Txn.change, List.foldl_append, List.foldl_cons,
          List.foldl_nil, apply_of_ne different]
        exact empty }

theorem TxnSound.drop {drop : Drop}
    (sound : TxnSound state.database state.session self txn)
    (drained : Drained (state.session self).datetimes.zone state.database txn
      drop) :
    TxnSound state.database state.session self (txn.drop drop) where
  started := sound.started
  guarded := sound.guarded
  alone := sound.alone
  drained := by
    intro dropped member
    rcases List.mem_cons.mp member with rfl | member
    · exact drained.transfer rfl drained.locked
    · have earlier := sound.drained dropped member
      exact earlier.transfer rfl earlier.locked

/-- What a failed block goes back to. -/
theorem TxnSound.goBack {item : Item} {base : Txn Row}
    (sound : TxnSound state.database state.session self txn)
    (extended : Extends item (some base) txn) :
    TxnSound state.database state.session self base := by
  obtain ⟨started, changes, shared, exclusive, drops, locked, -⟩ :=
    extended.extended base rfl
  exact {
    started := by
      rw [started]
      exact sound.started
    guarded := by
      rw [changes, shared]
      exact sound.guarded
    alone := by
      intro other different theirs found
      obtain ⟨mine, other's⟩ := sound.alone other different theirs found
      refine ⟨fun relation member => mine relation (exclusive member), ?_⟩
      intro relation member
      have unheld := other's relation member
      rw [not_holds_iff] at unheld ⊢
      rw [shared]
      exact ⟨unheld.1, fun held => unheld.2 (exclusive held)⟩
    drained := fun drop member =>
      (sound.drained drop (drops member)).transfer changes
        (locked drop member) }

end

end Sqlery.Partitioning.Reclaim
