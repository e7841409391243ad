import Sqlery.Rotation.SoundRuns

/-!
# What a statement of a tick does

The statements of a tick are told apart by what they do to the entries: nothing,
a delete, an insert or a commit; and one moves the generation on.
-/

namespace Sqlery.Rotation

open ReadCommitted

variable {Columns : Type} {n : Nat}

def At.hand : At Columns → Option (Entry Columns)
  | .moving at_ => at_.hand
  | _ => none

/-- The entry that is deleted and not inserted yet. -/
def Stage.hand : Stage Columns → Option (Entry Columns)
  | .resting => none
  | .ticking _ at_ => at_.hand

/-- Of the session of the tick. -/
inductive Effect (before : State Columns n) (self : Fin n) :
    State Columns n → Prop where
  /-- The transaction ends, or a new one begins. -/
  | clears {after : State Columns n} (session : Session Columns)
      (rows : after.rows = before.rows)
      (generation : after.generation = before.generation)
      (sessions : after.session = Function.update before.session self session)
      (draft : session.current.draft = {})
      (planned : session.current.slot = none)
      (stage : ∀ loop now, session.stage ≠ .ticking loop (.switchNext now)) :
      Effect before self after
  /-- The entries are left as they are. -/
  | goes {after : State Columns n} (loop : Loop) (at_ behind : At Columns)
      (session : Session Columns)
      (isAt : (before.session self).stage = .ticking loop at_)
      (rows : after.rows = before.rows)
      (generation : after.generation = before.generation)
      (sessions : after.session = Function.update before.session self session)
      (stage : ∃ loop, session.stage = .ticking loop behind)
      (deleted : session.current.draft.deleted = (before.drafts self).deleted)
      (inserted : session.current.draft.inserted =
        (before.drafts self).inserted)
      (hand : behind.hand = at_.hand)
      (switching : ∀ now, behind = .switchNext now → ∀ row ∈ before.rows,
        row.slot < slotCount → row.slot = slotForGeneration before.generation) :
      Effect before self after
  /-- An entry is deleted and taken in hand. -/
  | takes {after : State Columns n} (loop : Loop) (moving : Moving Columns)
      (row : Entry Columns) (session : Session Columns)
      (isAt : (before.session self).stage = .ticking loop (.moving moving))
      (rows : after.rows = before.rows)
      (generation : after.generation = before.generation)
      (sessions : after.session = Function.update before.session self session)
      (hand : moving.hand = none) (todo : row ∈ moving.todo)
      (draft : session.current.draft =
        (before.drafts self).delete Entry.key row.key)
      (stage : ∃ loop next, session.stage = .ticking loop (.moving next) ∧
        next.hand = some row) :
      Effect before self after
  /-- The entry in hand is inserted, or is there already. -/
  | puts {after : State Columns n} (loop : Loop) (moving : Moving Columns)
      (row : Entry Columns) (session : Session Columns)
      (isAt : (before.session self).stage = .ticking loop (.moving moving))
      (rows : after.rows = before.rows)
      (generation : after.generation = before.generation)
      (sessions : after.session = Function.update before.session self session)
      (hand : moving.hand = some row)
      (inserts : Inserts before self { row with slot := moving.cur }
        session.current)
      (stage : ∃ loop next, session.stage = .ticking loop (.moving next) ∧
        next.hand = none) :
      Effect before self after
  | commits {after : State Columns n} (loop : Loop) (at_ : At Columns)
      (session : Session Columns)
      (isAt : (before.session self).stage = .ticking loop at_)
      (hand : at_.hand = none)
      (rows : after.rows = (before.commit self).rows)
      (generation : after.generation = before.generation)
      (sessions : after.session = Function.update before.session self session)
      (closed : session.txn = none)
      (stage : ∀ loop now, session.stage ≠ .ticking loop (.switchNext now)) :
      Effect before self after
  /-- `nextval`. -/
  | advances {after : State Columns n} (loop : Loop) (now : Int)
      (session : Session Columns)
      (isAt : (before.session self).stage = .ticking loop (.switchNext now))
      (rows : after.rows = before.rows)
      (generation : after.generation = before.generation + 1)
      (sessions : after.session = Function.update before.session self session)
      (current : session.current = (before.session self).current)
      (stage : ∃ loop, session.stage = .ticking loop (.switchStamp now)) :
      Effect before self after

section

variable {state next : State Columns n} {self : Fin n} {loop : Loop}
variable {at_ behind : At Columns} {seen : RotationState} {slot cur moved : Nat}

/-- The tick goes on, and its draft is as before but for locks. -/
theorem Effect.ofTicks {txn : Txn Columns} {after : Loop}
    (isAt : (state.session self).stage = .ticking loop at_)
    (deleted : txn.draft.deleted = (state.drafts self).deleted)
    (inserted : txn.draft.inserted = (state.drafts self).inserted)
    (hand : behind.hand = at_.hand)
    (switching : ∀ now, behind = .switchNext now → ∀ row ∈ state.rows,
      row.slot < slotCount → row.slot = slotForGeneration state.generation) :
    Effect state self (state.ticks self txn after behind) :=
  .goes loop at_ behind _ isAt rfl rfl rfl ⟨after, rfl⟩ deleted inserted hand
    switching

theorem Effect.ofGoesOn
    (isAt : (state.session self).stage = .ticking loop at_)
    (hand : behind.hand = at_.hand)
    (staying : ∀ now, behind ≠ .switchNext now) :
    Effect state self (state.goesOn self loop behind) :=
  .ofTicks isAt rfl rfl hand fun now same => absurd same (staying now)

theorem Effect.ofStop (report : Report) :
    Effect state self (state.stop self report) :=
  .clears _ rfl rfl rfl rfl rfl fun _ _ same => by cases same

theorem Effect.ofStopCommit {report : Report}
    (isAt : (state.session self).stage = .ticking loop at_)
    (hand : at_.hand = none) :
    Effect state self ((state.commit self).stop self report) :=
  .commits loop at_ _ isAt hand rfl rfl rfl rfl fun _ _ same => by cases same

theorem Effect.ofAgain {after : Loop}
    (isAt : (state.session self).stage = .ticking loop at_)
    (hand : at_.hand = none) :
    Effect state self ((state.commit self).again self after) :=
  .commits loop at_ _ isAt hand rfl rfl rfl rfl fun _ _ same => by cases same

theorem effect_of_beginRound (taken : state.beginRound self loop = some next) :
    Effect state self next := by
  have begins {loop : Loop} {at_ : At Columns}
      (staying : ∀ now, at_ ≠ .switchNext now) :
      Effect state self (state.ticks self {} loop at_) := by
    refine .clears _ rfl rfl rfl rfl rfl fun _ now same => ?_
    cases same
    exact staying now rfl
  unfold State.beginRound at taken
  cases rounds : loop.left with
  | zero =>
      simp only [rounds, Option.some.injEq] at taken
      subst taken
      exact .ofStop _
  | succ left =>
      simp only [rounds] at taken
      split at taken
      · cases taken
      · cases decided :
          decideRotationStep (state.readState loop.config.interval)
          with
        | idle reason =>
            simp only [decided, Option.some.injEq] at taken
            subst taken
            exact .ofStop _
        | drain slot =>
            simp only [decided, Option.some.injEq] at taken
            subst taken
            exact begins fun _ same => by cases same
        | reclaim slot =>
            simp only [decided, Option.some.injEq] at taken
            subst taken
            exact begins fun _ same => by cases same
        | switch =>
            simp only [decided] at taken
            split at taken
            · obtain rfl := Option.some.inj taken
              exact .ofStop _
            · obtain rfl := Option.some.inj taken
              exact begins fun _ same => by cases same
        | retry slot reason =>
            simp only [decided, Option.some.injEq] at taken
            subst taken
            exact .ofStop _

theorem effect_of_tryLock
    (isAt : (state.session self).stage = .ticking loop (.switchLock seen)) :
    Effect state self (state.tryLock self loop seen) := by
  unfold State.tryLock
  split
  · exact .ofStop _
  · exact .ofTicks isAt rfl rfl rfl fun _ same => by cases same

/-- Where the generation may move on, all entries are in the current slot. -/
theorem slot_of_switch {interval : Rat} {row : Entry Columns}
    (decided : decideRotationStep { state.readState interval with
      switchLock := some true } = .switch)
    (member : row ∈ state.rows) :
    row.slot < slotCount → row.slot = slotForGeneration state.generation := by
  intro small
  by_contra different
  have clean := (switch_iff.mp decided).1 row.slot
    (mem_others.mpr ⟨small, different⟩)
  have empty := List.any_eq_false.mp clean.1 row member
  simp at empty

theorem effect_of_decideSwitch
    (isAt : (state.session self).stage = .ticking loop .switchDecide)
    (taken : state.decideSwitch self loop = some next) :
    Effect state self next := by
  unfold State.decideSwitch at taken
  split at taken
  · cases taken
  · simp only at taken
    split at taken
    · rename_i decided
      obtain rfl := Option.some.inj taken
      exact .ofTicks isAt rfl rfl rfl
        fun _ _ row member => slot_of_switch decided member
    · obtain rfl := Option.some.inj taken
      exact .ofStop _

theorem effect_of_lockShared
    (isAt : (state.session self).stage = .ticking loop at_)
    (behind : At Columns) (hand : behind.hand = at_.hand)
    (staying : ∀ now, behind ≠ .switchNext now)
    (taken : state.lockShared self loop behind = some next) :
    Effect state self next := by
  unfold State.lockShared at taken
  split at taken
  · cases taken
  · obtain rfl := Option.some.inj taken
    exact .ofTicks isAt rfl rfl hand fun now same => absurd same (staying now)

theorem effect_of_move (sound : state.Sound) {moving : Moving Columns}
    (isAt : (state.session self).stage = .ticking loop (.moving moving))
    (taken : state.move self loop moving = some next) :
    Effect state self next := by
  unfold State.move at taken
  cases hand : moving.hand with
  | some row =>
      simp only [hand] at taken
      obtain ⟨made, inserted, rfl⟩ := Option.map_eq_some_iff.mp taken
      exact .puts loop moving row _ isAt rfl rfl rfl hand
        (sound.insertEntry inserted).2 ⟨loop, _, rfl, rfl⟩
  | none =>
      cases isTodo : moving.todo with
      | cons row todo =>
          simp only [hand, isTodo, Option.some.injEq] at taken
          subst taken
          exact .takes loop moving row _ isAt rfl rfl rfl hand
            (by rw [isTodo]; exact List.mem_cons_self) rfl ⟨loop, _, rfl, rfl⟩
      | nil =>
          simp only [hand, isTodo] at taken
          cases reclaims : moving.reclaims with
          | none =>
              simp only [reclaims, Option.some.injEq] at taken
              subst taken
              exact .ofGoesOn isAt hand.symm fun _ same => by cases same
          | some seen =>
              simp only [reclaims, Option.some.injEq] at taken
              subst taken
              exact .ofGoesOn isAt hand.symm fun _ same => by cases same

theorem effect_of_drainRead
    (isAt : (state.session self).stage = .ticking loop (.drainRead slot)) :
    Effect state self (state.drainRead self loop slot) := by
  unfold State.drainRead
  simp only
  split
  · exact .ofGoesOn isAt rfl fun _ same => by cases same
  · exact .ofGoesOn isAt rfl fun _ same => by cases same

theorem effect_of_pick {jobs : List Nat}
    (taken : state.pick self jobs = some next) : Effect state self next := by
  unfold State.pick at taken
  split at taken
  · rename_i loop slot cur isAt
    simp only at taken
    split at taken
    · cases taken
    · obtain rfl := Option.some.inj taken
      exact .ofTicks isAt rfl rfl rfl fun _ same => by cases same
  · cases taken

theorem effect_of_reclaimMove
    (isAt : (state.session self).stage =
      .ticking loop (.reclaimMove seen slot cur))
    (taken : state.reclaimMove self loop seen slot cur = some next) :
    Effect state self next := by
  unfold State.reclaimMove at taken
  split at taken
  · cases taken
  · obtain rfl := Option.some.inj taken
    exact .ofTicks isAt rfl rfl rfl fun _ same => by cases same

theorem effect_of_step (sound : state.Sound)
    (taken : state.step self = some next) : Effect state self next := by
  unfold State.step at taken
  cases stage : (state.session self).stage with
  | resting => simp [stage] at taken
  | ticking loop at_ =>
      simp only [stage] at taken
      cases at_ with
      | readState => exact effect_of_beginRound taken
      | switchLock seen =>
          obtain rfl := Option.some.inj taken
          exact effect_of_tryLock stage
      | switchDecide => exact effect_of_decideSwitch stage taken
      | switchNext now =>
          obtain rfl := Option.some.inj taken
          exact .advances loop now _ stage rfl rfl rfl rfl ⟨loop, rfl⟩
      | switchStamp now =>
          obtain rfl := Option.some.inj taken
          exact .goes loop _ .switchEnd _ stage rfl rfl rfl ⟨loop, rfl⟩ rfl rfl
            rfl fun _ same => by cases same
      | switchEnd =>
          obtain rfl := Option.some.inj taken
          exact .ofAgain stage rfl
      | drainLock slot =>
          exact effect_of_lockShared stage (.drainRead slot) rfl
            (fun _ same => by cases same) taken
      | drainRead slot =>
          obtain rfl := Option.some.inj taken
          exact effect_of_drainRead stage
      | drainMove slot cur => cases taken
      | moving moving => exact effect_of_move sound stage taken
      | drainEnd moved =>
          obtain rfl := Option.some.inj taken
          unfold State.drainEnd
          simp only
          split
          · exact .ofStopCommit stage rfl
          · exact .ofAgain stage rfl
      | reclaimLock seen slot =>
          exact effect_of_lockShared stage (.reclaimRead seen slot) rfl
            (fun _ same => by cases same) taken
      | reclaimRead seen slot =>
          obtain rfl := Option.some.inj taken
          unfold State.reclaimRead
          simp only
          split
          · exact .ofStopCommit stage rfl
          · exact .ofGoesOn stage rfl fun _ same => by cases same
      | reclaimTable seen slot cur =>
          obtain rfl := Option.some.inj taken
          unfold State.lockTable
          split
          · exact .ofStop _
          · exact .ofTicks stage rfl rfl rfl fun _ same => by cases same
      | reclaimMove seen slot cur => exact effect_of_reclaimMove stage taken
      | reclaimTruncate seen slot moved =>
          obtain rfl := Option.some.inj taken
          unfold State.truncate
          split
          · exact .ofStopCommit stage rfl
          · exact .ofTicks stage rfl rfl rfl fun _ same => by cases same
      | reclaimStamp =>
          obtain rfl := Option.some.inj taken
          exact .goes loop _ .reclaimEnd _ stage rfl rfl rfl ⟨loop, rfl⟩ rfl rfl
            rfl fun _ same => by cases same
      | reclaimEnd =>
          obtain rfl := Option.some.inj taken
          exact .ofAgain stage rfl

theorem effect_of_tick {config : RotationConfig}
    (taken : state.tick self config = some next) : Effect state self next := by
  unfold State.tick at taken
  simp only at taken
  split at taken
  · rename_i closed
    obtain rfl := Option.some.inj taken
    have current : (state.session self).current = {} := by
      rw [Session.current, closed]
      rfl
    refine .clears _ rfl rfl rfl ?_ ?_ fun _ _ same => by cases same
    · exact congrArg Txn.draft current
    · exact congrArg Txn.slot current
  · cases taken

end

/-! ## Actions -/

/-- What an action does: that of a client leaves the entries to its draft until
its commit. -/
inductive Does (before : State Columns n) :
    RingAction Columns n → State Columns n → Prop where
  | nothing {action : RingAction Columns n} {after : State Columns n}
      (rows : after.rows = before.rows)
      (generation : after.generation = before.generation)
      (sessions : after.session = before.session) : Does before action after
  /-- A session that does not tick, or ticks no more. -/
  | client {action : RingAction Columns n} {after : State Columns n}
      (self : Fin n) (session : Session Columns)
      (rows : after.rows = before.rows)
      (generation : after.generation = before.generation)
      (sessions : after.session = Function.update before.session self session)
      (stage : session.stage = .resting) : Does before action after
  | commit {after : State Columns n} (self : Fin n) (session : Session Columns)
      (isAt : (before.session self).stage = .resting)
      (rows : after.rows = (before.commit self).rows)
      (generation : after.generation = before.generation)
      (sessions : after.session = Function.update before.session self session)
      (closed : session.txn = none) (stage : session.stage = .resting) :
      Does before (.commit self) after
  | tick {action : RingAction Columns n} {after : State Columns n}
      (self : Fin n) (ticks : action.ticks = some self)
      (effect : Effect before self after) :
      Does before action after

section

variable {state next : State Columns n} {self : Fin n}
variable {action : RingAction Columns n}

theorem does_of_writes {txn : Txn Columns} :
    Does state action (state.writes self txn) :=
  .client self _ rfl rfl rfl rfl

theorem does_of_reach {key : Key}
    {change : Draft (Entry Columns) Key → Draft (Entry Columns) Key}
    (taken : state.reach self key change = some next) :
    Does state action next := by
  unfold State.reach at taken
  cases isAt : (state.session self).stage with
  | ticking loop at_ => simp [isAt] at taken
  | resting =>
      simp only [isAt] at taken
      split at taken
      · cases taken
      · split at taken
        · obtain rfl := Option.some.inj taken
          exact does_of_writes
        · obtain rfl := Option.some.inj taken
          exact does_of_writes

theorem does_of_act (sound : state.Sound)
    (taken : act state action = some next) :
    Does state action next := by
  cases action with
  | elapse seconds =>
      obtain rfl := Option.some.inj taken
      exact .nothing rfl rfl rfl
  | plan self enabled present =>
      simp only [act, State.plan] at taken
      split at taken
      · split at taken
        · split at taken
          · cases taken
          · obtain rfl := Option.some.inj taken
            exact does_of_writes
        · obtain rfl := Option.some.inj taken
          exact does_of_writes
      · cases taken
  | readGeneration self =>
      simp only [act, State.readGeneration] at taken
      split at taken
      · split at taken
        · obtain rfl := Option.some.inj taken
          exact does_of_writes
        · cases taken
      · cases taken
  | insert self job columns =>
      simp only [act, State.insert] at taken
      split at taken
      · obtain ⟨made, inserted, rfl⟩ := Option.map_eq_some_iff.mp taken
        exact .client self _ rfl rfl rfl rfl
      · cases taken
  | scan self =>
      simp only [act, State.scan] at taken
      split at taken
      · split at taken
        · cases taken
        · obtain rfl := Option.some.inj taken
          exact does_of_writes
      · cases taken
  | lock self key =>
      simp only [act, State.lockEntry] at taken
      exact does_of_reach taken
  | delete self key =>
      simp only [act, State.deleteEntry] at taken
      exact does_of_reach taken
  | update self key columns =>
      simp only [act, State.updateEntry] at taken
      exact does_of_reach taken
  | commit self =>
      cases isAt : (state.session self).stage with
      | ticking loop at_ => simp [act, isAt] at taken
      | resting =>
          simp only [act, isAt, Option.some.injEq] at taken
          subst taken
          exact .commit self _ isAt rfl rfl rfl rfl rfl
  | tick self config => exact .tick self rfl (effect_of_tick taken)
  | pick self jobs => exact .tick self rfl (effect_of_pick taken)
  | step self => exact .tick self rfl (effect_of_step sound taken)
  | fail self =>
      obtain rfl := Option.some.inj taken
      exact .client self _ rfl rfl rfl rfl
  | vacuum slot =>
      simp only [act, State.vacuum] at taken
      split at taken
      · cases taken
      · obtain rfl := Option.some.inj taken
        exact .nothing rfl rfl rfl

end

end Sqlery.Rotation
