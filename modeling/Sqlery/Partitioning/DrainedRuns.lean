import Sqlery.Partitioning.Drained

/-!
# Runs of reclaims

Every action keeps the invariant: statement by statement for the reclaim.
-/

namespace Sqlery.Partitioning.Reclaim

open Runs
open Calendar (Zone)

variable {Row : Type} {n : Nat}

/-! ## Decisions and lists -/

theorem past_of_checkRows {zone : Zone} {upper now grace : Int}
    (decided : decidePartitionReclaim zone (some upper) now grace none false
      none = .checkRows) : upper < cutoff zone now grace := by
  unfold decidePartitionReclaim at decided
  by_cases recent : cutoff zone now grace ≤ upper
  · simp [recent] at decided
  · omega

theorem empty_of_drop {zone : Zone} {upper now grace : Int} {hasRows : Bool}
    (decided : decidePartitionReclaim zone (some upper) now grace
      (some hasRows) false (some true) = .drop) : hasRows = false := by
  cases hasRows with
  | false => rfl
  | true =>
      unfold decidePartitionReclaim at decided
      by_cases recent : cutoff zone now grace ≤ upper
      · simp [recent] at decided
      · simp [recent] at decided

theorem minute_le_graceOf (parsed : Option Int) : minute ≤ graceOf parsed :=
  le_max_right _ _

theorem known_of_listed {database : Database Row} {datetimes : Datetimes}
    {catalog : List Child} {entry : Text × Int}
    (names : (database.catalog.map (·.name)).Nodup)
    (part : catalog ⊆ database.catalog)
    (member : entry ∈ listed datetimes catalog) : Known database entry := by
  obtain ⟨name, upper⟩ := entry
  simp only [listed, List.mem_insertionSort, listPartitions, List.mem_filterMap,
    List.mem_map] at member
  obtain ⟨partition, ⟨listedChild, present, rfl⟩, found⟩ := member
  obtain ⟨read, parsed, same⟩ := Option.map_eq_some_iff.mp found
  obtain ⟨rfl, rfl⟩ := Prod.mk.inj same
  obtain ⟨lower, bound⟩ := parseUpperBound_getExpr parsed
  intro child isChild named
  obtain rfl := List.inj_on_of_nodup_map names isChild (part present) named
  exact ⟨lower, bound⟩

/-! ## Blocks -/

section

variable {database : Database Row} {state : State Row n} {self : Fin n}
variable {call : Call} {item : Item} {saved : Option (Txn Row)}
variable {current : Txn Row}

/-- ACCESS EXCLUSIVE on one more relation is no change for the block. -/
theorem Extends.exclude (extended : Extends item saved current)
    (relation : Relation) : Extends item saved (current.exclude relation) where
  begun := extended.begun
  extended := by
    intro base found
    obtain ⟨started, changes, shared, exclusive, rest⟩ :=
      extended.extended base found
    exact ⟨started, changes, shared,
      fun locked member => List.mem_cons_of_mem _ (exclusive member), rest⟩

theorem LockSound.exclude
    {zone : Zone} (sound : LockSound zone database call item saved current)
    (relation : Relation) :
    LockSound zone database call item saved (current.exclude relation) where
  block := {
    chosen := sound.block.chosen
    extended := sound.block.extended.exclude relation
    locked := List.mem_cons_of_mem _ sound.block.locked
    there := sound.block.there }
  undropped := sound.undropped

theorem Extends.drop (extended : Extends item saved current)
    (drop : Drop) : Extends item saved (current.drop drop) where
  begun := extended.begun
  extended := by
    intro base found
    obtain ⟨started, changes, shared, exclusive, drops, rest⟩ :=
      extended.extended base found
    exact ⟨started, changes, shared, exclusive,
      fun drop member => List.mem_cons_of_mem _ (drops member), rest⟩

theorem there_of_sees {txn : Option (Txn Row)} {name : Text}
    (seen : database.sees txn name = true) :
    (∃ child ∈ database.catalog, child.name = name) ∧
      ∀ open_, txn = some open_ → open_.drops? name = false := by
  simp only [Database.sees, Bool.and_eq_true, List.any_eq_true,
    decide_eq_true_eq, Bool.not_eq_true'] at seen
  refine ⟨seen.1, fun open_ found => ?_⟩
  subst found
  exact seen.2

end

variable [DecidableEq Row]

/-! ## Steps -/

section

variable {state next : State Row n} {self : Fin n} {session : Session Row}
variable {call : Call} {item : Item} {saved : Option (Txn Row)}

/-- The transactions are compatible, and each partition dropped in one is
drained. -/
def State.Safe (state : State Row n) : Prop :=
  Sound state.database state.session

theorem State.Safe.txn {txn : Txn Row} (safe : state.Safe)
    (found : (state.session self).txn = some txn) :
    TxnSound state.database state.session self txn :=
  (Sound.session safe self).txn txn found

theorem State.Safe.finish (safe : state.Safe)
    (same : session.datetimes = (state.session self).datetimes)
    (txns : ∀ txn, session.txn = some txn →
      TxnSound state.database state.session self txn) :
    (state.finish self session).Safe :=
  Sound.put safe same ⟨txns, trivial⟩

theorem State.Safe.commitPut (safe : state.Safe) (ended : session.txn = none)
    (same : session.datetimes = (state.session self).datetimes)
    (stage : StageSound session.datetimes.zone state.database none
      session.stage) :
    ((state.commit self).put self session).Safe := by
  cases found : (state.session self).txn with
  | none =>
      have uncommitted : state.commit self = state := by
        simp only [State.commit, found, Database.commit]
      rw [uncommitted]
      refine Sound.put safe same ⟨fun txn held => ?_, ?_⟩
      · rw [ended] at held
        cases held
      · rw [ended]
        exact stage
  | some txn =>
      have committed := Sound.commit safe found ended same stage
      simpa only [State.Safe, State.commit, found, Database.commit, State.put]
        using committed

theorem entered_sound (safe : state.Safe) {txn : Txn Row}
    (entered : state.entered (state.session self) = some txn) :
    TxnSound state.database state.session self txn := by
  cases found : (state.session self).txn with
  | some open_ =>
      simp only [State.entered, found, Option.some.injEq] at entered
      subst entered
      exact safe.txn found
  | none =>
      by_cases commits : (state.session self).autocommit = true
      · simp [State.entered, found, commits] at entered
      · simp only [State.entered, found, commits, Bool.false_eq_true, if_false,
          Option.some.injEq] at entered
        subst entered
        exact .begin

theorem State.Safe.called (safe : state.Safe) {grace : Option Int}
    (taken : state.call self grace = some next) : next.Safe := by
  unfold State.call at taken
  cases stage : (state.session self).stage with
  | resting =>
      simp only [stage] at taken
      split at taken
      · obtain rfl := Option.some.inj taken
        exact Sound.put safe rfl
          ⟨fun txn found => entered_sound safe found, minute_le_graceOf grace⟩
      · obtain rfl := Option.some.inj taken
        refine Sound.put safe rfl
          ⟨fun txn found => entered_sound safe found, ?_⟩
        simp only [StageSound]
  | _ => simp [stage] at taken

theorem State.Safe.change (safe : state.Safe) {change : Change Row}
    (taken : state.change self change = some next) : next.Safe := by
  unfold State.change at taken
  cases stage : (state.session self).stage with
  | resting =>
      cases found : (state.session self).txn with
      | none => simp [stage, found] at taken
      | some txn =>
          simp only [stage, found] at taken
          split at taken
          · rename_i free
            obtain rfl := Option.some.inj taken
            simp only [Bool.and_eq_true, Bool.not_eq_true', Database.sees,
              Option.any_some] at free
            obtain ⟨⟨⟨-, undropped⟩, parentFree⟩, childFree⟩ := free
            have shared := ((safe.txn found).share parentFree).share childFree
            have changed := shared.change List.mem_cons_self undropped
            refine Sound.put safe rfl ⟨fun made held => ?_, ?_⟩
            · obtain rfl := Option.some.inj held
              exact changed
            · simp only [StageSound]
          · cases taken
  | _ => simp [stage] at taken

theorem State.Safe.endImplicit (safe : state.Safe) {grace : Int}
    (atLeast : minute ≤ grace) :
    (state.endImplicit self (state.session self) grace).Safe := by
  unfold State.endImplicit
  split
  · exact Sound.put safe rfl ⟨fun txn found => safe.txn found, atLeast⟩
  · split
    · exact safe.finish rfl fun txn found => safe.txn found
    · exact safe.commitPut rfl rfl atLeast

theorem State.Safe.readNow (safe : state.Safe) {grace : Int}
    (atLeast : minute ≤ grace) :
    (state.readNow self (state.session self) grace).Safe := by
  refine Sound.put safe rfl ⟨fun txn found => entered_sound safe found, ?_⟩
  refine ⟨atLeast, ?_⟩
  cases found : state.entered (state.session self) with
  | none => exact le_rfl
  | some txn => exact (entered_sound safe found).started

theorem State.Safe.listAll (safe : state.Safe)
    (called : CallSound state.database call) :
    (state.listAll self (state.session self) call).Safe := by
  refine Sound.put safe rfl ⟨fun txn found => safe.txn found, called, ?_⟩
  intro entry member
  exact known_of_listed (Sound.names safe) List.filter_sublist.subset member

theorem State.Safe.nextItem (safe : state.Safe)
    (called : CallSound state.database call) {todo : List (Text × Int)}
    (known : ∀ entry ∈ todo, Known state.database entry) :
    (state.nextItem self (state.session self) call todo).Safe := by
  have mine : ∀ txn, (state.session self).txn = some txn →
      TxnSound state.database state.session self txn :=
    fun txn found => safe.txn found
  cases todo with
  | nil => exact safe.finish rfl mine
  | cons entry todo =>
      have later : ∀ entry ∈ todo, Known state.database entry :=
        fun entry member => known entry (List.mem_cons_of_mem _ member)
      obtain ⟨name, upper⟩ := entry
      simp only [State.nextItem]
      split
      · exact Sound.put safe rfl ⟨mine, called, later⟩
      · split
        · rename_i decided
          exact Sound.put safe rfl ⟨mine, {
            called := called
            known := known (name, upper) List.mem_cons_self
            past := past_of_checkRows decided
            todo := later }⟩
        · exact Sound.put safe rfl ⟨mine, called, later⟩

theorem State.Safe.firstLook (safe : state.Safe)
    (chosen : ItemSound
      (state.session self).datetimes.zone state.database call item)
    (taken : state.firstLook self (state.session self) call item = some next) :
    next.Safe := by
  unfold State.firstLook at taken
  split at taken
  · obtain rfl := Option.some.inj taken
    exact Sound.put safe rfl
      ⟨fun txn found => safe.txn found, chosen.called, chosen.todo⟩
  · split at taken
    · cases taken
    · rename_i free
      have free : state.othersExclude self (.child item.name) = false := by
        simpa using free
      have mine : ∀ txn, ((state.session self).txn.map
          (·.share (.child item.name))) = some txn →
          TxnSound state.database state.session self txn := by
        intro txn found
        obtain ⟨base, held, rfl⟩ := Option.map_eq_some_iff.mp found
        exact (safe.txn held).share free
      simp only at taken
      split at taken
      · obtain rfl := Option.some.inj taken
        exact Sound.put safe rfl ⟨mine, chosen⟩
      · obtain rfl := Option.some.inj taken
        exact Sound.put safe rfl ⟨mine, chosen.called, chosen.todo⟩

/-- The transaction of the block, at its begin. -/
theorem State.Safe.base (safe : state.Safe) :
    TxnSound state.database state.session self
      ((state.session self).txn.getD
        { startedAt := state.database.clock }) := by
  cases found : (state.session self).txn with
  | none => exact .begin
  | some txn => exact safe.txn found

theorem State.Safe.extends (safe : state.Safe)
    (seen : state.database.sees (state.session self).txn item.name = true) :
    Extends item (state.session self).txn
      (((state.session self).txn.getD
        { startedAt := state.database.clock }).exclude (.child item.name)) := by
  cases found : (state.session self).txn with
  | none =>
      refine ⟨fun _ => rfl, fun base isSome => ?_⟩
      cases isSome
  | some txn =>
      refine ⟨fun isNone => ?_, fun base isSome => ?_⟩
      · cases isNone
      · obtain rfl := Option.some.inj isSome
        have drained := (safe.txn found).drained
        exact ⟨rfl, rfl, rfl, List.subset_cons_self _ _, List.Subset.refl _,
          fun drop member => (drained drop member).locked,
          (there_of_sees seen).2 _ found⟩

theorem State.Safe.takeLock (safe : state.Safe)
    (chosen : ItemSound
      (state.session self).datetimes.zone state.database call item) :
    (state.takeLock self (state.session self) call item).Safe := by
  unfold State.takeLock
  split
  · exact Sound.put safe rfl
      ⟨fun txn found => safe.txn found, chosen.called, chosen.todo⟩
  · rename_i open_
    simp only [Bool.or_eq_true, not_or, Bool.not_eq_true, Bool.not_eq_false']
      at open_
    obtain ⟨⟨-, seen⟩, free⟩ := open_
    have locked := safe.base.exclude free
    refine Sound.put safe rfl ⟨fun txn found => ?_, _, rfl, ?_⟩
    · obtain rfl := Option.some.inj found
      exact locked
    · obtain ⟨there, undropped⟩ := there_of_sees seen
      exact {
        block := {
          chosen := chosen
          extended := safe.extends seen
          locked := List.mem_cons_self
          there := there }
        undropped := by
          cases found : (state.session self).txn with
          | none => rfl
          | some txn => exact undropped txn found }

theorem State.Safe.recheckRows (safe : state.Safe) {current : Txn Row}
    (found : (state.session self).txn = some current)
    (sound : LockSound
      (state.session self).datetimes.zone state.database call item
        saved current) :
    (state.recheckRows self (state.session self) call item saved).Safe := by
  unfold State.recheckRows
  simp only
  split
  · rename_i decided
    have isEmpty := empty_of_drop decided
    have empty : current.view item.name
      (state.database.rows item.name) = [] := by
      simpa [Database.view, found] using isEmpty
    exact Sound.put safe rfl
      ⟨fun txn held => safe.txn held, current, found, sound, empty⟩
  · exact Sound.put safe rfl
      ⟨fun txn held => safe.txn held, current, found, sound.block⟩

theorem State.Safe.detachPartition (safe : state.Safe) {current : Txn Row}
    (found : (state.session self).txn = some current)
    (sound : LockSound
      (state.session self).datetimes.zone state.database call item
        saved current)
    (empty : current.view item.name (state.database.rows item.name) = [])
    (taken : state.detachPartition self (state.session self) call item saved =
      some next) : next.Safe := by
  unfold State.detachPartition at taken
  split at taken
  · cases taken
  · rename_i free
    have free : state.othersHold self .parent = false := by simpa using free
    obtain rfl := Option.some.inj taken
    refine Sound.put safe rfl ⟨fun txn held => ?_, current.exclude .parent, ?_,
      sound.exclude .parent, empty⟩
    · rw [found] at held
      obtain rfl := Option.some.inj held
      exact (safe.txn found).exclude free
    · rw [found]
      rfl

/-- The drop of the partition at hand. -/
theorem LockSound.drained {current : Txn Row}
    (sound : LockSound
      (state.session self).datetimes.zone state.database call item
        saved current)
    (empty : current.view item.name (state.database.rows item.name) = []) :
    Drained (state.session self).datetimes.zone state.database current
      ⟨item.name, item.upper, call.now, call.grace⟩ := by
  obtain ⟨child, member, named⟩ := sound.block.there
  obtain ⟨lower, bound⟩ := sound.block.chosen.known child member named
  have isChild : child = ⟨item.name, .range lower (.time item.upper)⟩ := by
    rw [← named, ← bound]
  exact {
    locked := sound.block.locked
    ends := ⟨lower, isChild ▸ member⟩
    past := sound.block.chosen.past
    grace := sound.block.chosen.called.grace
    now := sound.block.chosen.called.now
    empty := empty }

theorem State.Safe.dropTable (safe : state.Safe) {current : Txn Row}
    (found : (state.session self).txn = some current)
    (sound : LockSound
      (state.session self).datetimes.zone state.database call item
        saved current)
    (empty : current.view item.name (state.database.rows item.name) = []) :
    (state.dropTable self (state.session self) call item saved).Safe := by
  refine Sound.put safe rfl ⟨fun txn held => ?_,
    current.drop ⟨item.name, item.upper, call.now, call.grace⟩, ?_, ?_⟩
  · rw [found] at held
    obtain rfl := Option.some.inj held
    exact (safe.txn found).drop (sound.drained empty)
  · rw [found]
    rfl
  · have chosen := sound.block.chosen
    exact {
      chosen := {
        called := ⟨chosen.called.grace, chosen.called.now⟩
        known := chosen.known
        past := chosen.past
        todo := chosen.todo }
      extended := sound.block.extended.drop _
      locked := sound.block.locked
      there := sound.block.there }

theorem State.Safe.leaveBlock (safe : state.Safe)
    (chosen : ItemSound
      (state.session self).datetimes.zone state.database call item) :
    (state.leaveBlock self (state.session self) call item saved).Safe := by
  cases saved with
  | some base =>
      exact Sound.put safe rfl
        ⟨fun txn found => safe.txn found, chosen.called, chosen.todo⟩
  | none => exact safe.commitPut rfl rfl ⟨chosen.called, chosen.todo⟩

theorem State.Safe.stage (safe : state.Safe) {stage : Stage Row}
    (isAt : (state.session self).stage = stage) :
    StageSound (state.session self).datetimes.zone state.database
      (state.session self).txn stage := by
  rw [← isAt]
  exact (Sound.session safe self).stage

theorem State.Safe.step (safe : state.Safe)
    (taken : state.step self = some next) : next.Safe := by
  unfold State.step at taken
  cases isAt : (state.session self).stage with
  | resting => simp [isAt] at taken
  | acquired grace =>
      simp only [isAt, Option.some.injEq] at taken
      subst taken
      exact safe.endImplicit (safe.stage isAt)
  | clear grace =>
      simp only [isAt, Option.some.injEq] at taken
      subst taken
      exact safe.readNow (safe.stage isAt)
  | timed call =>
      simp only [isAt, Option.some.injEq] at taken
      subst taken
      exact safe.listAll (safe.stage isAt)
  | each call todo =>
      simp only [isAt, Option.some.injEq] at taken
      subst taken
      obtain ⟨called, known⟩ := safe.stage isAt
      exact safe.nextItem called known
  | look call item =>
      simp only [isAt] at taken
      exact safe.firstLook (safe.stage isAt) taken
  | take call item =>
      simp only [isAt, Option.some.injEq] at taken
      subst taken
      exact safe.takeLock (safe.stage isAt)
  | recheck call item saved =>
      simp only [isAt, Option.some.injEq] at taken
      subst taken
      obtain ⟨current, found, sound⟩ := safe.stage isAt
      exact safe.recheckRows found sound
  | detach call item saved =>
      simp only [isAt] at taken
      obtain ⟨current, found, sound, empty⟩ := safe.stage isAt
      exact safe.detachPartition found sound empty taken
  | drop call item saved =>
      simp only [isAt, Option.some.injEq] at taken
      subst taken
      obtain ⟨current, found, sound, empty⟩ := safe.stage isAt
      exact safe.dropTable found sound empty
  | leave call item saved =>
      simp only [isAt, Option.some.injEq] at taken
      subst taken
      obtain ⟨current, found, sound⟩ := safe.stage isAt
      exact safe.leaveBlock sound.chosen

theorem State.Safe.backTo (safe : state.Safe)
    (isAt : (state.session self).stage.backTo (state.session self).txn =
      some (call, item, saved)) :
    ItemSound (state.session self).datetimes.zone state.database call item ∧
      ∀ txn, saved = some txn →
        TxnSound state.database state.session self txn := by
  have goBack (current : Txn Row)
    (found : (state.session self).txn = some current)
      (block : BlockSound
        (state.session self).datetimes.zone state.database call item
          saved current) :
      ItemSound (state.session self).datetimes.zone state.database call item ∧
        ∀ txn, saved = some txn →
          TxnSound state.database state.session self txn := by
    refine ⟨block.chosen, fun txn isSome => ?_⟩
    subst isSome
    exact (safe.txn found).goBack block.extended
  cases stage : (state.session self).stage with
  | look called chosen =>
      rw [stage] at isAt
      cases isAt
      exact ⟨safe.stage stage, fun txn found => safe.txn found⟩
  | take called chosen =>
      rw [stage] at isAt
      cases isAt
      exact ⟨safe.stage stage, fun txn found => safe.txn found⟩
  | recheck called chosen base =>
      rw [stage] at isAt
      cases isAt
      obtain ⟨current, found, sound⟩ := safe.stage stage
      exact goBack current found sound.block
  | detach called chosen base =>
      rw [stage] at isAt
      cases isAt
      obtain ⟨current, found, sound, -⟩ := safe.stage stage
      exact goBack current found sound.block
  | drop called chosen base =>
      rw [stage] at isAt
      cases isAt
      obtain ⟨current, found, sound, -⟩ := safe.stage stage
      exact goBack current found sound.block
  | leave called chosen base =>
      rw [stage] at isAt
      cases isAt
      obtain ⟨current, found, sound⟩ := safe.stage stage
      exact goBack current found sound
  | _ =>
      rw [stage] at isAt
      cases isAt

theorem State.Safe.fail (safe : state.Safe) {ofServer : Bool}
    (taken : state.fail self ofServer = some next) : next.Safe := by
  have mine : ∀ txn, (state.session self).txn = some txn →
      TxnSound state.database state.session self txn :=
    fun txn found => safe.txn found
  have none_mine : ∀ txn, (state.session self).ended.txn = some txn →
      TxnSound state.database state.session self txn := by
    intro txn found
    cases found
  unfold State.fail at taken
  cases back : (state.session self).stage.backTo (state.session self).txn with
  | some at_ =>
      obtain ⟨call, item, saved⟩ := at_
      obtain ⟨chosen, saves⟩ := safe.backTo back
      simp only [back] at taken
      split at taken
      · obtain rfl := Option.some.inj taken
        exact Sound.put safe rfl ⟨saves, chosen.called, chosen.todo⟩
      · obtain rfl := Option.some.inj taken
        exact safe.finish rfl saves
  | none =>
      simp only [back] at taken
      split at taken
      · cases taken
      · obtain rfl := Option.some.inj taken
        exact safe.finish rfl none_mine
      · split at taken
        · obtain rfl := Option.some.inj taken
          exact Sound.put safe rfl ⟨none_mine, trivial⟩
        · obtain rfl := Option.some.inj taken
          exact safe.finish rfl mine

theorem State.Safe.lose (safe : state.Safe) : (state.lose self).Safe := by
  refine Sound.put safe rfl ⟨fun txn found => ?_, trivial⟩
  cases found

theorem State.Safe.act {action : Action Row n} (safe : state.Safe)
    (taken : act state action = some next) : next.Safe := by
  cases action with
  | tick elapsed =>
      obtain rfl := Option.some.inj taken
      exact Sound.later safe elapsed
  | start self atomic =>
      simp only [Reclaim.act] at taken
      split at taken
      · obtain rfl := Option.some.inj taken
        rename_i isAt _
        have mine : TxnSound state.database state.session self
            { startedAt := state.database.clock } := .begin
        refine Sound.put safe rfl ⟨fun txn found => ?_, ?_⟩
        · obtain rfl := Option.some.inj found
          exact mine
        · rw [isAt]
          trivial
      · cases taken
  | change self change => exact safe.change taken
  | commit self =>
      simp only [Reclaim.act] at taken
      split at taken
      · obtain rfl := Option.some.inj taken
        rename_i isAt _
        refine safe.commitPut rfl rfl ?_
        simp only [Session.ended, isAt, StageSound]
      · cases taken
  | rollback self =>
      simp only [Reclaim.act] at taken
      split at taken
      · obtain rfl := Option.some.inj taken
        rename_i isAt
        refine Sound.put safe rfl ⟨fun txn found => ?_, ?_⟩
        · cases found
        · simp only [Session.ended, isAt, StageSound]
      · cases taken
  | call self grace => exact safe.called taken
  | step self => exact safe.step taken
  | fail self ofServer => exact safe.fail taken
  | lose self =>
      obtain rfl := Option.some.inj taken
      exact safe.lose

/-- The state can be reached, by any order of actions. -/
def State.ReachedFrom (state start : State Row n) : Prop :=
  Reaches (act : Machine (State Row n) (Action Row n)) anyAction start state

/-- No transaction is open, and the partitions have their names. -/
structure State.Begins (state : State Row n) : Prop where
  names : (state.database.catalog.map (·.name)).Nodup
  closed : ∀ self, (state.session self).txn = none
  resting : ∀ self, (state.session self).stage = .resting

theorem safe_of_reaches {start : State Row n} (begins : start.Begins)
    (reached : state.ReachedFrom start) : state.Safe := by
  have first : start.Safe := by
    refine ⟨begins.names, fun self => ⟨fun txn found => ?_, ?_⟩⟩
    · rw [begins.closed] at found
      cases found
    · rw [begins.resting]
      trivial
  have kept (before : State Row n) (action : Action Row n) (after : State Row n)
      (safe : before.Safe) (_ : anyAction before action)
      (taken : Reclaim.act before action = some after) : after.Safe :=
    safe.act taken
  exact Reaches.invariant reached first kept

end

end Sqlery.Partitioning.Reclaim
