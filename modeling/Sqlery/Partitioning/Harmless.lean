import Sqlery.Partitioning.DrainedRuns

/-!
# No job is dropped

What an action does to the database in a run of reclaims and of transactions
that insert, move and delete.
-/

namespace Sqlery.Partitioning.Reclaim

open Runs
open Calendar (Zone)

variable {Row : Type} {n : Nat}

/-! ## Steps that leave the database -/

theorem nextItem_database (state : State Row n) (self : Fin n)
    (session : Session Row) (call : Call) (todo : List (Text × Int)) :
    (state.nextItem self session call todo).database = state.database := by
  cases todo with
  | nil => rfl
  | cons entry todo =>
      obtain ⟨name, upper⟩ := entry
      simp only [State.nextItem]
      split
      · rfl
      · split
        · rfl
        · rfl

theorem takeLock_database (state : State Row n) (self : Fin n)
    (session : Session Row) (call : Call) (item : Item) :
    (state.takeLock self session call item).database = state.database := by
  unfold State.takeLock
  split
  · rfl
  · rfl

theorem detachPartition_database {state next : State Row n}
    {self : Fin n} {session : Session Row} {call : Call} {item : Item}
    {saved : Option (Txn Row)}
    (taken : state.detachPartition self session call item saved = some next) :
    next.database = state.database := by
  unfold State.detachPartition at taken
  split at taken
  · cases taken
  · obtain rfl := Option.some.inj taken
    rfl

theorem fail_database {state next : State Row n} {self : Fin n}
    {ofServer : Bool}
    (taken : state.fail self ofServer = some next) :
    next.database = state.database := by
  unfold State.fail at taken
  simp only at taken
  split at taken
  · split at taken
    · obtain rfl := Option.some.inj taken
      rfl
    · obtain rfl := Option.some.inj taken
      rfl
  · split at taken
    · cases taken
    · obtain rfl := Option.some.inj taken
      rfl
    · split at taken
      · obtain rfl := Option.some.inj taken
        rfl
      · obtain rfl := Option.some.inj taken
        rfl

theorem txn_of_fail {before after : State Row n} {self : Fin n}
    {ofServer : Bool} {call : Call} {item : Item} {saved : Option (Txn Row)}
    (isAt : (before.session self).stage.backTo (before.session self).txn =
      some (call, item, saved))
    (taken : before.fail self ofServer = some after) :
    (after.session self).txn = saved := by
  unfold State.fail at taken
  simp only [isAt] at taken
  split at taken
  · obtain rfl := Option.some.inj taken
    simp [State.put]
  · obtain rfl := Option.some.inj taken
    simp [State.finish, State.put]

theorem takeLock_refused {before : State Row n} {self : Fin n}
    {session : Session Row} {call : Call} {item : Item}
    (held : before.othersHold self (.child item.name) = true) :
    ((before.takeLock self session call item).session self).txn =
      session.txn := by
  unfold State.takeLock
  rw [if_pos (by simp [held])]
  simp [State.put]

variable [DecidableEq Row]

/-! ## What an action does -/

/-- The rows change by what the transaction of a session has changed in them. -/
def OwnChanges (before after : State Row n) : Prop :=
  ∃ self txn, (before.session self).txn = some txn ∧
    (after.session self).txn = none ∧
    ∀ name, after.database.rows name = txn.view name (before.database.rows name)

/-- The grace is over on the clock of the session, and over since the time that
has gone by, unless the clock has been put forward or back meanwhile. -/
structure GraceOver (zone : Zone) (drop : Drop) : Prop where
  shown : drop.upper < cutoff zone drop.now drop.grace
  elapsed : zone.Steady (drop.now - drop.grace) drop.now →
    drop.upper < drop.now - drop.grace

/-- The drop of a drained partition, which no other session has a lock on. -/
def DrainedBy (state : State Row n) (self : Fin n) (drop : Drop) : Prop :=
  ∃ txn, (state.session self).txn = some txn ∧
    Drained (state.session self).datetimes.zone state.database txn drop ∧
    GraceOver (state.session self).datetimes.zone drop ∧
    state.othersHold self (.child drop.name) = false

structure Harmless (before : State Row n) (action : Action Row n)
    (after : State Row n) : Prop where
  /-- `DROP TABLE` is of a drained partition. -/
  dropping : ∀ self call item saved, action = .step self →
    (before.session self).stage = .drop call item saved →
    DrainedBy before self ⟨item.name, item.upper, call.now, call.grace⟩
  /-- A partition goes when its drop is committed, and is drained then. -/
  dropped : ∀ child ∈ before.database.catalog,
    child ∉ after.database.catalog → ∃ self txn drop,
      (before.session self).txn = some txn ∧
      (after.session self).txn = none ∧ drop ∈ txn.drops ∧
      drop.name = child.name ∧
      (∃ lower, child.bound = .range lower (.time drop.upper)) ∧
      DrainedBy before self drop
  rows : after.database.rows = before.database.rows ∨ OwnChanges before after
  /-- The reclaim commits no row away, nor anything else of rows. -/
  reclaiming : ∀ self, action = .step self →
    (∀ grace, (before.session self).stage ≠ .acquired grace) →
    after.database.rows = before.database.rows
  /-- The lock is not to be had. -/
  refused : ∀ self call item, action = .step self →
    (before.session self).stage = .take call item →
    before.othersHold self (.child item.name) = true →
    after.database = before.database ∧
      (after.session self).txn = (before.session self).txn
  /-- An error leaves the database, and to the transaction the partition at
  hand and every row. -/
  failing : ∀ self ofServer, action = .fail self ofServer →
    after.database = before.database ∧
      ∀ call item saved, (before.session self).stage.backTo
          (before.session self).txn = some (call, item, saved) →
        (after.session self).txn = saved ∧
        (∀ name, before.database.view saved name =
          before.database.view (before.session self).txn name) ∧
        (saved = (before.session self).txn ∨
          before.database.sees saved item.name = true)

section

variable {before after : State Row n} {self : Fin n} {txn : Txn Row}

theorem TxnSound.free
    (sound : TxnSound before.database before.session self txn)
    {relation : Relation} (locked : relation ∈ txn.exclusive) :
    before.othersHold self relation = false := by
  refine List.any_eq_false.mpr fun other _ => ?_
  by_cases isSelf : other = self
  · simp [isSelf]
  · cases found : (before.session other).txn with
    | none => simp
    | some theirs =>
        have free := (sound.alone other isSelf theirs found).1 relation locked
        simp [isSelf, free]

theorem cutoff_steady {zone : Zone} {now grace : Int} (forward : 0 ≤ grace)
    (steady : zone.Steady (now - grace) now) :
    cutoff zone now grace = now - grace := by
  obtain ⟨offset, keeps⟩ := steady
  have earlier : now - grace ≤ now := Int.sub_le_self now forward
  have reading : now + offset + -grace = now - grace + offset := by
    omega
  simp only [cutoff, Calendar.Stamp.instant, Calendar.Stamp.utcoffset,
    Calendar.Stamp.plus, Calendar.Stamp.load,
    keeps.shown now earlier le_rfl, reading,
    keeps.read (now - grace) le_rfl earlier]
  exact Int.add_sub_cancel _ _

theorem Drained.graceOver {zone : Zone} {database : Database Row} {drop : Drop}
    (drained : Drained zone database txn drop) : GraceOver zone drop where
  shown := drained.past
  elapsed := by
    intro steady
    have isMinute : 0 ≤ minute := by decide
    have isCutoff := cutoff_steady (le_trans isMinute drained.grace) steady
    rw [← isCutoff]
    exact drained.past

theorem TxnSound.drainedBy
    (sound : TxnSound before.database before.session self txn)
    (found : (before.session self).txn = some txn) {drop : Drop}
    (drained : Drained (before.session self).datetimes.zone before.database txn
      drop) : DrainedBy before self drop :=
  ⟨txn, found, drained, drained.graceOver, sound.free drained.locked⟩

/-- A commit of drops takes no rows. -/
theorem TxnSound.rows_apply
    (sound : TxnSound before.database before.session self txn) (name : Text) :
    (before.database.apply txn).rows name =
      txn.view name (before.database.rows name) := by
  unfold Database.apply
  cases dropped : txn.drops? name with
  | false => simp [dropped]
  | true =>
      obtain ⟨drop, member, rfl⟩ := drops?_iff.mp dropped
      simp [dropped, (sound.drained drop member).empty]

theorem State.Safe.dropped_of_commit (safe : before.Safe) {child : Child}
    (member : child ∈ before.database.catalog)
    (gone : child ∉ (before.commit self).database.catalog) :
    ∃ txn drop, (before.session self).txn = some txn ∧ drop ∈ txn.drops ∧
      drop.name = child.name ∧
      (∃ lower, child.bound = .range lower (.time drop.upper)) ∧
      DrainedBy before self drop := by
  unfold State.commit at gone
  cases found : (before.session self).txn with
  | none =>
      rw [found] at gone
      exact absurd member gone
  | some txn =>
      rw [found] at gone
      have dropped : txn.drops? child.name = true := by
        by_contra kept
        exact gone (List.mem_filter.mpr ⟨member, by simpa using kept⟩)
      obtain ⟨drop, isDrop, named⟩ := drops?_iff.mp dropped
      have sound := safe.txn found
      have drained := sound.drained drop isDrop
      obtain ⟨lower, listed⟩ := drained.ends
      have same := List.inj_on_of_nodup_map
        (Sound.names safe) listed member named
      exact ⟨txn, drop, rfl, isDrop, named, ⟨lower, by rw [← same]⟩,
        sound.drainedBy found drained⟩

/-- An action does nothing to the database but to go on with the clock, or a
session commits, and a reclaim only what it has begun or found open. -/
inductive Does (before : State Row n) (action : Action Row n)
    (after : State Row n) : Prop where
  | nothing (catalog : after.database.catalog = before.database.catalog)
      (rows : after.database.rows = before.database.rows)
  | commit (self : Fin n)
      (database : after.database = (before.commit self).database)
      (closed : (after.session self).txn = none)
      (reclaiming : ∀ other, action = .step other → other = self ∧
        ((∃ grace, (before.session self).stage = .acquired grace) ∨
          ∃ call item, (before.session self).stage = .leave call item none))

variable {action : Action Row n}

theorem does_of_database (same : after.database = before.database) :
    Does before action after :=
  .nothing (by rw [same]) (by rw [same])

theorem firstLook_database {state next : State Row n} {session : Session Row}
    {call : Call} {item : Item}
    (taken : state.firstLook self session call item = some next) :
    next.database = state.database := by
  unfold State.firstLook at taken
  split at taken
  · obtain rfl := Option.some.inj taken
    rfl
  · split at taken
    · cases taken
    · simp only at taken
      split at taken
      · obtain rfl := Option.some.inj taken
        rfl
      · obtain rfl := Option.some.inj taken
        rfl

theorem recheckRows_database (state : State Row n) (self : Fin n)
    (session : Session Row) (call : Call) (item : Item)
    (saved : Option (Txn Row)) :
    (state.recheckRows self session call item saved).database =
      state.database := by
  unfold State.recheckRows
  simp only
  split
  · rfl
  · rfl

theorem does_of_step (taken : before.step self = some after) :
    Does before (.step self) after := by
  unfold State.step at taken
  cases isAt : (before.session self).stage with
  | resting => simp [isAt] at taken
  | acquired grace =>
      simp only [isAt, Option.some.injEq] at taken
      subst taken
      unfold State.endImplicit
      split
      · exact does_of_database rfl
      · split
        · exact does_of_database rfl
        · refine .commit self rfl ?_ ?_
          · simp [State.put, Session.ended]
          · intro other same
            cases same
            exact ⟨rfl, .inl ⟨grace, isAt⟩⟩
  | clear grace =>
      simp only [isAt, Option.some.injEq] at taken
      subst taken
      exact does_of_database rfl
  | timed call =>
      simp only [isAt, Option.some.injEq] at taken
      subst taken
      exact does_of_database rfl
  | each call todo =>
      simp only [isAt, Option.some.injEq] at taken
      subst taken
      exact does_of_database (nextItem_database _ _ _ _ _)
  | look call item =>
      simp only [isAt] at taken
      exact does_of_database (firstLook_database taken)
  | take call item =>
      simp only [isAt, Option.some.injEq] at taken
      subst taken
      exact does_of_database (takeLock_database _ _ _ _ _)
  | recheck call item saved =>
      simp only [isAt, Option.some.injEq] at taken
      subst taken
      exact does_of_database (recheckRows_database _ _ _ _ _ _)
  | detach call item saved =>
      simp only [isAt] at taken
      exact does_of_database (detachPartition_database taken)
  | drop call item saved =>
      simp only [isAt, Option.some.injEq] at taken
      subst taken
      exact does_of_database rfl
  | leave call item saved =>
      simp only [isAt, Option.some.injEq] at taken
      subst taken
      cases saved with
      | some base => exact does_of_database rfl
      | none =>
          refine .commit self rfl ?_ ?_
          · simp [State.leaveBlock, State.put, Session.ended]
          · intro other same
            cases same
            exact ⟨rfl, .inr ⟨call, item, isAt⟩⟩

theorem does_of_act (taken : act before action = some after) :
    Does before action after := by
  cases action with
  | tick elapsed =>
      obtain rfl := Option.some.inj taken
      exact .nothing rfl rfl
  | start self atomic =>
      simp only [act] at taken
      split at taken
      · obtain rfl := Option.some.inj taken
        exact does_of_database rfl
      · cases taken
  | change self change =>
      simp only [act, State.change] at taken
      split at taken
      · split at taken
        · obtain rfl := Option.some.inj taken
          exact does_of_database rfl
        · cases taken
      · cases taken
  | commit self =>
      simp only [act] at taken
      split at taken
      · obtain rfl := Option.some.inj taken
        refine .commit self rfl ?_ ?_
        · simp [State.put, Session.ended]
        · intro other same
          cases same
      · cases taken
  | rollback self =>
      simp only [act] at taken
      split at taken
      · obtain rfl := Option.some.inj taken
        exact does_of_database rfl
      · cases taken
  | call self grace =>
      simp only [act, State.call] at taken
      split at taken
      · split at taken
        · obtain rfl := Option.some.inj taken
          exact does_of_database rfl
        · obtain rfl := Option.some.inj taken
          exact does_of_database rfl
      · cases taken
  | step self => exact does_of_step taken
  | fail self ofServer => exact does_of_database (fail_database taken)
  | lose self =>
      obtain rfl := Option.some.inj taken
      exact does_of_database rfl

theorem rows_of_commit (safe : before.Safe) (self : Fin n) (name : Text) :
    (before.commit self).database.rows name =
      before.database.view (before.session self).txn name := by
  unfold State.commit
  cases found : (before.session self).txn with
  | none => rfl
  | some txn => exact (safe.txn found).rows_apply name

theorem ownChanges_of_commit (safe : before.Safe)
    (database : after.database = (before.commit self).database)
    (closed : (after.session self).txn = none) :
    after.database.rows = before.database.rows ∨ OwnChanges before after := by
  cases found : (before.session self).txn with
  | none =>
      refine .inl (funext fun name => ?_)
      rw [database, rows_of_commit safe, found]
      rfl
  | some txn =>
      refine .inr ⟨self, txn, found, closed, fun name => ?_⟩
      rw [database, rows_of_commit safe, found]
      rfl

/-- The block of a reclaim that is a transaction by itself changes no row. -/
theorem rows_of_leave (safe : before.Safe) {call : Call} {item : Item}
    (isAt : (before.session self).stage = .leave call item none) :
    (before.commit self).database.rows = before.database.rows := by
  obtain ⟨current, found, block⟩ := safe.stage isAt
  have unchanged : current.changes = [] := block.extended.begun rfl
  refine funext fun name => ?_
  rw [rows_of_commit safe, found]
  refine view_of_unchanged fun change member => ?_
  rw [unchanged] at member
  cases member

/-- What an error goes back to, the session sees as before. -/
theorem State.Safe.view_backTo (safe : before.Safe) {call : Call} {item : Item}
    {saved : Option (Txn Row)}
    (isAt : (before.session self).stage.backTo (before.session self).txn =
      some (call, item, saved)) :
    (∀ name, before.database.view saved name =
      before.database.view (before.session self).txn name) ∧
    (saved = (before.session self).txn ∨
      before.database.sees saved item.name = true) := by
  have goBack (current : Txn Row)
    (found : (before.session self).txn = some current)
      (block : BlockSound (before.session self).datetimes.zone before.database
        call item saved current) :
      (∀ name, before.database.view saved name =
        before.database.view (before.session self).txn name) ∧
      before.database.sees saved item.name = true := by
    obtain ⟨child, member, named⟩ := block.there
    have there : before.database.catalog.any
      (fun child => child.name = item.name) =
        true := List.any_eq_true.mpr ⟨child, member, by simpa using named⟩
    rw [found]
    cases saved with
    | none =>
        have unchanged : current.changes = [] := block.extended.begun rfl
        refine ⟨fun name => ?_, ?_⟩
        · symm
          refine view_of_unchanged fun change member => ?_
          rw [unchanged] at member
          cases member
        · simpa [Database.sees] using there
    | some base =>
        obtain ⟨-, changes, -, -, -, -, undropped⟩ :=
          block.extended.extended base rfl
        refine ⟨fun name => view_congr changes, ?_⟩
        simp only [Database.sees, there, Option.any_some, undropped,
          Bool.not_false, Bool.and_true]
  cases stage : (before.session self).stage with
  | look called chosen =>
      rw [stage] at isAt
      cases isAt
      exact ⟨fun _ => rfl, .inl rfl⟩
  | take called chosen =>
      rw [stage] at isAt
      cases isAt
      exact ⟨fun _ => rfl, .inl rfl⟩
  | recheck called chosen base =>
      rw [stage] at isAt
      cases isAt
      obtain ⟨current, found, sound⟩ := safe.stage stage
      exact (goBack current found sound.block).imp_right .inr
  | detach called chosen base =>
      rw [stage] at isAt
      cases isAt
      obtain ⟨current, found, sound, -⟩ := safe.stage stage
      exact (goBack current found sound.block).imp_right .inr
  | drop called chosen base =>
      rw [stage] at isAt
      cases isAt
      obtain ⟨current, found, sound, -⟩ := safe.stage stage
      exact (goBack current found sound.block).imp_right .inr
  | leave called chosen base =>
      rw [stage] at isAt
      cases isAt
      obtain ⟨current, found, sound⟩ := safe.stage stage
      exact (goBack current found sound).imp_right .inr
  | _ =>
      rw [stage] at isAt
      cases isAt

/-- Reclaim drops no job: each action, in every order of the actions of sessions
that reclaim, insert, move and delete. -/
theorem reclaim_dropsNoJob {start : State Row n} (begins : start.Begins)
    (reached : before.ReachedFrom start)
    (taken : act before action = some after) :
    Harmless before action after := by
  have safe := safe_of_reaches begins reached
  have does := does_of_act taken
  refine {
    dropping := ?_
    dropped := ?_
    rows := ?_
    reclaiming := ?_
    refused := ?_
    failing := ?_ }
  · intro self call item saved _ isAt
    obtain ⟨current, found, sound, empty⟩ := safe.stage isAt
    exact (safe.txn found).drainedBy found (sound.drained empty)
  · intro child member gone
    cases does with
    | nothing catalog rows =>
        rw [catalog] at gone
        exact absurd member gone
    | commit self database closed reclaiming =>
        rw [database] at gone
        obtain ⟨txn, drop, found, rest⟩ := safe.dropped_of_commit member gone
        exact ⟨self, txn, drop, found, closed, rest⟩
  · cases does with
    | nothing catalog rows => exact .inl rows
    | commit self database closed reclaiming =>
        exact ownChanges_of_commit safe database closed
  · intro self isStep others
    cases does with
    | nothing catalog rows => exact rows
    | commit holder database closed reclaiming =>
        obtain ⟨rfl, acquired | ⟨call, item, isAt⟩⟩ := reclaiming self isStep
        · obtain ⟨grace, isAt⟩ := acquired
          exact absurd isAt (others grace)
        · rw [database]
          exact rows_of_leave safe isAt
  · intro self call item isStep isAt held
    subst isStep
    simp only [act, State.step, isAt, Option.some.injEq] at taken
    subst taken
    exact ⟨takeLock_database _ _ _ _ _, takeLock_refused held⟩
  · intro self ofServer isFail
    subst isFail
    refine ⟨fail_database taken, fun call item saved isAt => ?_⟩
    exact ⟨txn_of_fail isAt taken, safe.view_backTo isAt⟩

end

/-! ## A partition that is drained -/

/-- The literals of the first two hours. -/
def firstHours : Datetimes where
  zone := .fixed 0
  print time :=
    if time = hour then "0001-01-01 01:00:00+00".toList
    else "0001-01-01 00:00:00+00".toList
  strptime _ _ := none
  fromisoformat text :=
    if text = "0001-01-01 01:00:00+00:00".toList then some ⟨hour, some 0⟩
    else none
  print_nonempty time := by
    split
    · decide
    · decide
  print_plain time := by
    split
    · decide
    · decide
  strptime_print := by simp
  fromisoformat_print := by
    intro time stamp
    by_cases isHour : time = hour
    · rw [if_pos isHour, isHour]
      intro read
      have same : stamp = ⟨hour, some 0⟩ := by
        have text : normalised "0001-01-01 01:00:00+00".toList =
            "0001-01-01 01:00:00+00:00".toList := by decide
        rw [text, if_pos rfl] at read
        exact (Option.some.inj read).symm
      rw [same]
      rfl
    · rw [if_neg isHour]
      have text : normalised "0001-01-01 00:00:00+00".toList ≠
          "0001-01-01 01:00:00+00:00".toList := by decide
      rw [if_neg text]
      intro read
      cases read
  strptime_infinity _ _ := rfl
  fromisoformat_infinity negative := by
    cases negative <;> rfl

/-- Two partitions at three o'clock, the first without rows, and a session that
reclaims beside one that inserts. -/
def atThree : State Nat 2 where
  database := {
    clock := 3 * hour
    catalog := [⟨"p0".toList, .range (.time 0) (.time hour)⟩,
      ⟨"default".toList, .default⟩]
    rows := fun _ => [] }
  session := fun _ =>
    { datetimes := firstHours, autocommit := true, repeatable := false }

def reclaimer : Fin 2 := ⟨0, Nat.zero_lt_two⟩

def inserter : Fin 2 := ⟨1, Nat.one_lt_two⟩

/-- A row is inserted between the first look and the lock on the partition. -/
def reclaimOnce : List (Action Nat 2) :=
  [.call reclaimer none, .step reclaimer, .step reclaimer, .step reclaimer,
    .step reclaimer, .start inserter false,
    .change inserter (.insert "default".toList 7), .step reclaimer,
    .step reclaimer, .step reclaimer, .commit inserter, .step reclaimer,
    .step reclaimer]

section

-- The run is evaluated, a statement at a time.
set_option maxRecDepth 1000

theorem reclaim_dropsNoJob_reclaimOnce : ∃ before after,
    runWhile act (fun _ _ => true) atThree reclaimOnce = some before ∧
      act before (.step reclaimer) = some after ∧
      after.database.catalog = [⟨"default".toList, .default⟩] ∧
      after.database.rows "default".toList = [7] ∧
      Harmless before (.step reclaimer) after := by
  have begins : atThree.Begins :=
    ⟨by decide, fun _ => rfl, fun _ => rfl⟩
  refine ⟨_, _, rfl, rfl, rfl, rfl, ?_⟩
  refine reclaim_dropsNoJob begins ?_ rfl
  exact reaches_of_runWhile (fun _ _ _ => trivial)
    (show runWhile act (fun _ _ => true) atThree reclaimOnce = some _ from rfl)

end

end Sqlery.Partitioning.Reclaim
