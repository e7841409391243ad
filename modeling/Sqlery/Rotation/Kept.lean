import Sqlery.Rotation.Effects

/-!
# Rotation loses no entry

Until a claimer takes it, a job that has a committed entry has one: the entry
that a tick has deleted is in its hand, or inserted in its draft, or another
entry of the job is in the current slot, where no tick deletes.
-/

namespace Sqlery.Rotation

open ReadCommitted Runs

variable {Columns : Type} {n : Nat}

/-! ## Entries on their way -/

/-- The draft has an entry of the job, or the entry is in hand. -/
def Session.Carries (session : Session Columns) (job : Nat) : Prop :=
  (∃ made ∈ session.current.draft.inserted, made.job = job) ∨
    ∃ row, session.stage.hand = some row ∧ row.job = job

/-- A tick has the row deleted only while it carries its job on. -/
def Session.Spares (session : Session Columns) (row : Entry Columns) : Prop :=
  session.stage ≠ .resting → row.key ∈ session.current.draft.deleted →
    session.Carries row.job

def State.Keeps (state : State Columns n) (job : Nat) : Prop :=
  ∃ row ∈ state.rows, row.job = job ∧
    ∀ self, (state.session self).Spares row

/-- No commit of a client takes the entries of the job away. -/
def Unclaimed (job : Nat) (state : State Columns n)
    (action : RingAction Columns n) : Prop :=
  ∀ self, action = .commit self → ∀ row ∈ state.rows, row.job = job →
    row.key ∈ (state.drafts self).deleted →
      ∃ made ∈ (state.drafts self).inserted, made.job = job

section

variable {state next : State Columns n} {self : Fin n} {job : Nat}
variable {session : Session Columns} {row : Entry Columns}

theorem Session.Spares.of_kept
    (kept : row.key ∉ session.current.draft.deleted) :
    session.Spares row :=
  fun _ deleted => absurd deleted kept

theorem Session.Spares.of_resting (isAt : session.stage = .resting) :
    session.Spares row :=
  fun ticking => absurd isAt ticking

/-- A row that a tick has deleted. -/
theorem Session.Spares.carried {loop : Loop} {at_ : At Columns}
    (spares : session.Spares row) (isAt : session.stage = .ticking loop at_)
    (deleted : row.key ∈ session.current.draft.deleted) :
    (∃ made ∈ session.current.draft.inserted, made.job = row.job) ∨
      ∃ held, at_.hand = some held ∧ held.job = row.job := by
  have ticking : session.stage ≠ .resting := by
    rw [isAt]
    exact fun same => by cases same
  have carried := spares ticking deleted
  unfold Session.Carries at carried
  rw [isAt] at carried
  exact carried

/-- One session changes, and spares the row. -/
theorem State.Keeps.of_update (row : Entry Columns) (member : row ∈ next.rows)
    (same : row.job = job)
    (sessions : next.session = Function.update state.session self session)
    (spares : session.Spares row)
    (others : ∀ other, other ≠ self → (state.session other).Spares row) :
    next.Keeps job := by
  refine ⟨row, member, same, fun other => ?_⟩
  rw [sessions]
  by_cases isSelf : other = self
  · subst isSelf
    rw [Function.update_self]
    exact spares
  · rw [Function.update_of_ne isSelf]
    exact others other isSelf

/-- A tick leaves alone what is in the current slot. -/
theorem State.Sound.spares_current (sound : state.Sound)
    (current : row.slot = slotForGeneration state.generation) :
    (state.session self).Spares row := by
  intro ticking deleted
  have stands := sound.stage self
  cases isAt : (state.session self).stage with
  | resting => exact absurd isAt ticking
  | ticking loop at_ =>
      rw [isAt] at stands
      exact absurd current (stands.1.deleted row.key deleted).other

/-- A commit of a session that carries the job on, or does not touch it. -/
theorem State.Keeps.commit (kept : state.Keeps job) (sound : state.Sound)
    (rows : next.rows = (state.commit self).rows)
    (sessions : next.session = Function.update state.session self session)
    (closed : session.txn = none)
    (carried : ∀ row ∈ state.rows, row.job = job →
      (state.session self).Spares row →
      row.key ∈ (state.drafts self).deleted →
        ∃ made ∈ (state.drafts self).inserted, made.job = job) :
    next.Keeps job := by
  have mine (row : Entry Columns) : session.Spares row := by
    refine .of_kept ?_
    rw [Session.current, closed]
    exact List.not_mem_nil
  rw [sound.rows_commit] at rows
  obtain ⟨row, isRow, same, spares⟩ := kept
  by_cases deleted : row.key ∈ (state.drafts self).deleted
  · obtain ⟨made, inserted, same⟩ :=
      carried row isRow same (spares self) deleted
    refine .of_update made ?_ same sessions (mine made) ?_
    · rw [rows]
      exact Draft.mem_view.mpr (.inr inserted)
    · intro other different
      refine .of_kept fun theirs => different ?_
      exact sound.lawful.apart other self made.key
        (Draft.touches_of_deleted theirs) (Draft.touches_of_inserted inserted)
  · refine .of_update row ?_ same sessions (mine row)
      fun other _ => spares other
    rw [rows]
    exact Draft.mem_view.mpr (.inl ⟨isRow, deleted⟩)

/-- The entry in hand is put down: it is inserted, or the entry that is in its
place is one of the job. -/
theorem State.Keeps.puts (kept : state.Keeps job) (sound : state.Sound)
    {loop : Loop} {moving : Moving Columns} {held : Entry Columns}
    (isAt : (state.session self).stage = .ticking loop (.moving moving))
    (rows : next.rows = state.rows)
    (sessions : next.session = Function.update state.session self session)
    (hand : moving.hand = some held)
    (inserts : Inserts state self { held with slot := moving.cur }
      session.current) : next.Keeps job := by
  obtain ⟨row, isRow, same, spares⟩ := kept
  obtain ⟨moves, stands⟩ := sound.stands isAt
  have inHand (deleted : row.key ∈ (state.drafts self).deleted) :
      (∃ made ∈ (state.drafts self).inserted, made.job = row.job) ∨
        held.job = row.job := by
    rcases (spares self).carried isAt deleted with made | ⟨other, isHeld, same⟩
    · exact .inl made
    · have isHeld : moving.hand = some other := isHeld
      rw [hand] at isHeld
      obtain rfl := Option.some.inj isHeld
      exact .inr same
  generalize made : session.current = txn at inserts
  cases inserts with
  | insert unseen =>
      refine .of_update row (by rw [rows]; exact isRow) same sessions ?_
        fun other _ => spares other
      intro _ gone
      unfold Session.Carries
      rw [made] at gone ⊢
      rcases inHand gone with ⟨entry, inserted, sameJob⟩ | sameJob
      · exact .inl ⟨entry, List.mem_cons_of_mem _ inserted, sameJob⟩
      · exact .inl ⟨_, List.mem_cons_self, sameJob⟩
  | conflict seen =>
      obtain ⟨entry, viewed, sameKey⟩ := Draft.sees_iff.mp seen
      have sameSlot : entry.slot = moving.cur := congrArg Prod.fst sameKey
      have sameJob : entry.job = held.job := congrArg Prod.snd sameKey
      by_cases deleted : row.key ∈ (state.drafts self).deleted
      · rcases inHand deleted with ⟨copy, inserted, copied⟩ | isHeld
        · refine .of_update row (by rw [rows]; exact isRow) same sessions ?_
            fun other _ => spares other
          intro _ _
          refine .inl ⟨copy, ?_, copied⟩
          rw [made]
          exact inserted
        · rcases Draft.mem_view.mp viewed with ⟨isEntry, kept⟩ | inserted
          · -- From here on it is the entry in the current slot that is kept.
            have current : entry.slot = slotForGeneration state.generation := by
              rw [sameSlot]
              exact MovingSound.cur stands
            refine .of_update entry (by rw [rows]; exact isEntry)
              ((sameJob.trans isHeld).trans same) sessions (.of_kept ?_)
              fun other _ => sound.spares_current current
            rw [made]
            exact kept
          · refine .of_update row (by rw [rows]; exact isRow) same sessions ?_
              fun other _ => spares other
            intro _ _
            refine .inl ⟨entry, ?_, sameJob.trans isHeld⟩
            rw [made]
            exact inserted
      · refine .of_update row (by rw [rows]; exact isRow) same sessions
          (.of_kept ?_)
          fun other _ => spares other
        rw [made]
        exact deleted

theorem State.Keeps.effect (kept : state.Keeps job) (sound : state.Sound)
    (effect : Effect state self next) : next.Keeps job := by
  cases effect with
  | clears session rows generation sessions draft planned stage =>
      obtain ⟨row, isRow, same, spares⟩ := kept
      refine .of_update row (by rw [rows]; exact isRow) same sessions
        (.of_kept ?_)
        fun other _ => spares other
      rw [draft]
      exact List.not_mem_nil
  | goes loop at_ behind session isAt rows generation sessions stage deleted
      inserted hand switching =>
      obtain ⟨row, isRow, same, spares⟩ := kept
      obtain ⟨after, stage⟩ := stage
      refine .of_update row (by rw [rows]; exact isRow) same sessions ?_
        fun other _ => spares other
      intro _ gone
      rw [deleted] at gone
      rcases (spares self).carried isAt gone with made | held
      · rw [← State.drafts, ← inserted] at made
        exact .inl made
      · rw [← hand] at held
        exact .inr (by rw [stage]; exact held)
  | takes loop moving taken session isAt rows generation sessions
    hand todo draft
      stage =>
      obtain ⟨row, isRow, same, spares⟩ := kept
      obtain ⟨after, moved, stage, inHand⟩ := stage
      refine .of_update row (by rw [rows]; exact isRow) same sessions ?_
        fun other _ => spares other
      intro _ gone
      by_cases isTaken : row.key = taken.key
      · refine .inr ⟨taken, by rw [stage]; exact inHand, ?_⟩
        exact (congrArg Prod.snd isTaken).symm
      · rw [draft] at gone
        have gone := (List.mem_cons.mp gone).resolve_left isTaken
        rcases (spares self).carried isAt gone with
          ⟨made, inserted, sameJob⟩ | ⟨held, isHeld, -⟩
        · -- The copies are in another slot than what is deleted.
          obtain ⟨moves, stands⟩ := sound.stands isAt
          have current := (moves.inserted made inserted).2
          have slot := (MovingSound.todo stands taken todo).2.1
          refine .inl ⟨made, ?_, sameJob⟩
          rw [draft]
          refine List.mem_filter.mpr ⟨inserted, ?_⟩
          rw [decide_eq_true_eq]
          intro sameKey
          have sameSlot : made.slot = taken.slot := congrArg Prod.fst sameKey
          rw [current, slot] at sameSlot
          exact (MovingSound.off stands).other sameSlot.symm
        · have isHeld : moving.hand = some held := isHeld
          rw [hand] at isHeld
          cases isHeld
  | puts loop moving held session isAt rows generation sessions hand inserts
      stage => exact kept.puts sound isAt rows sessions hand inserts
  | commits loop at_ session isAt hand rows generation sessions closed stage =>
      refine kept.commit sound rows sessions closed ?_
      intro row isRow same spares deleted
      rcases spares.carried isAt deleted with
        ⟨made, inserted, sameJob⟩ | ⟨held, isHeld, -⟩
      · exact ⟨made, inserted, sameJob.trans same⟩
      · rw [hand] at isHeld
        cases isHeld
  | advances loop now session isAt rows generation sessions current stage =>
      obtain ⟨row, isRow, same, spares⟩ := kept
      refine .of_update row (by rw [rows]; exact isRow) same sessions ?_
        fun other _ => spares other
      intro _ gone
      rw [current] at gone
      rcases (spares self).carried isAt gone with made | ⟨held, isHeld, -⟩
      · exact .inl (by rw [current]; exact made)
      · cases isHeld

theorem State.Keeps.act (kept : state.Keeps job) (sound : state.Sound)
    {action : RingAction Columns n} (unclaimed : Unclaimed job state action)
    (taken : act state action = some next) : next.Keeps job := by
  cases does_of_act sound taken with
  | nothing rows generation sessions =>
      obtain ⟨row, isRow, same, spares⟩ := kept
      refine ⟨row, by rw [rows]; exact isRow, same, fun self => ?_⟩
      rw [sessions]
      exact spares self
  | client self session rows generation sessions stage =>
      obtain ⟨row, isRow, same, spares⟩ := kept
      exact .of_update row (by rw [rows]; exact isRow) same sessions
        (.of_resting stage) fun other _ => spares other
  | commit self session isAt rows generation sessions closed stage =>
      refine kept.commit sound rows sessions closed ?_
      intro row isRow same _ deleted
      exact unclaimed self rfl row isRow same deleted
  | tick self _ effect => exact kept.effect sound effect

/-- What a client commits, no tick has touched. -/
theorem keeps_of_insert (sound : state.Sound)
    (isAt : (state.session self).stage = .resting)
    (inserted : row ∈ (state.drafts self).inserted)
    (taken : Rotation.act state (.commit self) = some next) :
    next.Keeps row.job := by
  simp only [Rotation.act, isAt, Option.some.injEq] at taken
  subst taken
  refine .of_update row ?_ rfl rfl
    (.of_resting rfl) ?_
  · show row ∈ (state.commit self).rows
    rw [sound.rows_commit]
    exact Draft.mem_view.mpr (.inr inserted)
  · intro other different
    refine .of_kept fun theirs => different ?_
    exact sound.lawful.apart other self row.key
      (Draft.touches_of_deleted theirs) (Draft.touches_of_inserted inserted)

end

/-! ## Runs -/

/-- States in which the job has just got an entry, or had one from the start. -/
inductive Entered (start : State Columns n) (job : Nat) :
    State Columns n → Prop where
  | begun {row : Entry Columns} (member : row ∈ start.rows)
      (same : row.job = job) : Entered start job start
  | added {before after : State Columns n} {self : Fin n} {row : Entry Columns}
      (reached : Reaches act anyAction start before)
      (isAt : (before.session self).stage = .resting)
      (inserted : row ∈ (before.drafts self).inserted) (same : row.job = job)
      (taken : act before (.commit self) = some after) :
      Entered start job after

theorem Entered.keeps {start state : State Columns n} {job : Nat}
    (entered : Entered start job state) (begins : start.Begins) :
    state.Sound ∧ state.Keeps job := by
  cases entered with
  | begun member same =>
      refine ⟨begins.sound, _, member, same, fun self => .of_resting ?_⟩
      rw [begins.session self]
  | added reached isAt inserted same taken =>
      have sound := sound_of_reaches begins reached
      subst same
      exact ⟨sound.act taken, keeps_of_insert sound isAt inserted taken⟩

/-- An entry is there until a claimer has taken it: in no order of ticks, claims
and inserts, and whatever fails, does a switch, a drain or a reclaim lose it. -/
theorem rotation_keepsEntry {start entry state : State Columns n} {job : Nat}
    (begins : start.Begins) (entered : Entered start job entry)
    (reached : Reaches act (Unclaimed job) entry state) :
    ∃ row ∈ state.rows, row.job = job := by
  have invariant : state.Sound ∧ state.Keeps job := by
    induction reached with
    | refl => exact entered.keeps begins
    | step _ unclaimed taken ih =>
        exact ⟨ih.1.act taken, ih.2.act ih.1 unclaimed taken⟩
  obtain ⟨row, isRow, same, -⟩ := invariant.2
  exact ⟨row, isRow, same⟩

/-- What an action of a tick commits: it removes what its own transaction has
deleted, outside the current slot, and adds copies of that. -/
structure OnlyMoves (action : RingAction Columns n)
    (before after : State Columns n) : Prop where
  removed : ∀ old ∈ before.rows, old ∉ after.rows →
    old.slot ≠ slotForGeneration before.generation ∧
      ∃ self, action.ticks = some self ∧
        old.key ∈ (before.drafts self).deleted
  added : ∀ row ∈ after.rows, row ∉ before.rows →
    row.slot = slotForGeneration before.generation ∧ ∃ old ∈ before.rows,
      old ∉ after.rows ∧ old.job = row.job ∧ old.columns = row.columns

section

variable {before after : State Columns n} {self : Fin n}
variable {action : RingAction Columns n}

theorem OnlyMoves.of_rows (same : after.rows = before.rows) :
    OnlyMoves action before after where
  removed := by
    intro old member gone
    rw [same] at gone
    exact absurd member gone
  added := by
    intro row member fresh
    rw [same] at member
    exact absurd member fresh

theorem OnlyMoves.of_commit {loop : Loop} {at_ : At Columns}
    (sound : before.Sound)
    (isAt : (before.session self).stage = .ticking loop at_)
    (ticks : action.ticks = some self)
    (rows : after.rows = (before.commit self).rows) :
    OnlyMoves action before after := by
  obtain ⟨moves, -⟩ := sound.stands isAt
  rw [sound.rows_commit] at rows
  constructor
  · intro old member gone
    have deleted : old.key ∈ (before.drafts self).deleted := by
      by_contra kept
      rw [rows] at gone
      exact gone (Draft.mem_view.mpr (.inl ⟨member, kept⟩))
    exact ⟨(moves.deleted old.key deleted).other, self, ticks, deleted⟩
  · intro row member fresh
    rw [rows] at member
    have inserted : row ∈ (before.drafts self).inserted :=
      (Draft.mem_view.mp member).resolve_left fun kept => fresh kept.1
    obtain ⟨old, isOld, deleted, same⟩ := moves.copies row inserted
    refine ⟨(moves.inserted row inserted).2, old, isOld, ?_, same⟩
    intro there
    rw [rows] at there
    rcases Draft.mem_view.mp there with ⟨-, kept⟩ | again
    · exact kept deleted
    · exact (moves.deleted old.key deleted).other (moves.inserted old again).2

/-- But for the commits of clients, entries only move, to the current slot, with
all their columns; and a truncate takes only what its own transaction has
moved. -/
theorem rotation_onlyMoves {start : State Columns n} (begins : start.Begins)
    (reached : Reaches act anyAction start before)
    (taken : act before action = some after)
    (ofTick : ∀ self, action ≠ .commit self) :
    OnlyMoves action before after := by
  have sound := sound_of_reaches begins reached
  cases does_of_act sound taken with
  | nothing rows generation sessions => exact .of_rows rows
  | client self session rows generation sessions stage => exact .of_rows rows
  | commit self session isAt rows generation sessions closed stage =>
      exact absurd rfl (ofTick self)
  | tick self ticks effect =>
      cases effect with
      | clears session rows => exact .of_rows rows
      | goes loop at_ behind session isAt rows => exact .of_rows rows
      | takes loop moving row session isAt rows => exact .of_rows rows
      | puts loop moving row session isAt rows => exact .of_rows rows
      | commits loop at_ session isAt hand rows => 
          exact .of_commit sound isAt ticks rows
      | advances loop now session isAt rows => exact .of_rows rows

end

/-! ## A turn of the ring -/

def rotator : Fin 2 := ⟨0, Nat.zero_lt_two⟩

def writer : Fin 2 := ⟨1, Nat.one_lt_two⟩

/-- As the migrations leave it. -/
def migrated : State Nat 2 where
  rows := []
  pages := fun _ => false
  generation := 3
  clock := 1000
  session := fun _ => {}

theorem migrated_begins : migrated.Begins :=
  ⟨fun _ => rfl, List.nodup_nil⟩

def writeJob : List (RingAction Nat 2) :=
  [.plan writer true true, .readGeneration writer, .insert writer 7 0]

/-- A switch, and a drain up to its commit. -/
def turn : List (RingAction Nat 2) :=
  [.tick rotator {}, .step rotator, .step rotator, .step rotator, .step rotator,
    .step rotator, .step rotator, .step rotator, .step rotator, .step rotator,
    .pick rotator [7], .step rotator, .step rotator, .step rotator]

def ofTick (_ : State Nat 2) : RingAction Nat 2 → Bool
  | .commit _ => false
  | _ => true

theorem unclaimed_of_ofTick {job : Nat} (state : State Nat 2)
    (action : RingAction Nat 2) (checked : ofTick state action = true) :
    Unclaimed job state action := by
  intro self isCommit
  subst isCommit
  cases checked

section

-- The run is evaluated, a statement at a time.
set_option maxRecDepth 2000

theorem rotation_keepsEntry_turn : ∃ before entry state,
    runWhile act (fun _ _ => true) migrated writeJob = some before ∧
      act before (.commit writer) = some entry ∧
      runWhile act ofTick entry (turn ++ [.step rotator]) = some state ∧
      state.generation = 4 ∧ ∃ row ∈ state.rows, row.job = 7 := by
  refine ⟨_, _, _, rfl, rfl, rfl, rfl, ?_⟩
  refine rotation_keepsEntry migrated_begins
    (.added (reaches_of_runWhile (fun _ _ _ => trivial)
      (show runWhile act (fun _ _ => true) migrated writeJob = some _ from rfl))
      ?_ (List.mem_cons_self : (⟨0, 7, 0⟩ : Entry Nat) ∈ [⟨0, 7, 0⟩]) rfl
      (show act _ (.commit writer) = some _ from rfl)) ?_
  · rfl
  · exact reaches_of_runWhile unclaimed_of_ofTick
      (show runWhile act ofTick _ (turn ++ [.step rotator]) = some _ from rfl)

theorem rotation_onlyMoves_turn : ∃ before after,
    runWhile act (fun _ _ => true) migrated
        (writeJob ++ .commit writer :: turn) = some before ∧
      act before (.step rotator) = some after ∧
      before.rows = [⟨0, 7, 0⟩] ∧ after.rows = [⟨1, 7, 0⟩] ∧
      OnlyMoves (.step rotator) before after := by
  refine ⟨_, _, rfl, rfl, rfl, rfl, ?_⟩
  refine rotation_onlyMoves migrated_begins
    (reaches_of_runWhile (fun _ _ _ => trivial)
      (show runWhile act (fun _ _ => true) migrated
        (writeJob ++ .commit writer :: turn) = some _ from rfl))
    (show act _ (.step rotator) = some _ from rfl) ?_
  intro self isCommit
  cases isCommit

end

end Sqlery.Rotation
