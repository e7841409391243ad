import Sqlery.ReadCommitted.Watch
import Sqlery.Standalone.Fencing

/-!
# What a completion reports

A completion that presents an attempt handle returns normally when it closed
that attempt and raises otherwise, as long as nobody removes the job's live row
while the call is under way.  If the row goes after the first look-up, the call
finds nothing to complete and returns as if it had.
-/

namespace Sqlery.Standalone

open ReadCommitted
open Setting (Chains Lasts Yields)
open Script

/-- The step does not remove the live row of the job. -/
def Spares (job : JobId) (first second : Db) : Prop :=
  first.live.get job ≠ none → second.live.get job ≠ none

/-- A completion relies on the live row of its job. -/
abbrev sparing (job : JobId) : Terms Db Write Lock where
  keeps := Spares job

theorem spares_chains (job : JobId) : Chains (sparing job) where
  refl := fun _ => id
  trans := fun _ _ _ left right present => right (left present)

/-- The row of the job can be found. -/
def OnRecord (job : JobId) (db : Db) : Prop :=
  db.live.get job ≠ none ∨ db.historyOf job ≠ none

section Reads

variable {cfg : Config} {job : JobId} {β γ : Type}
variable {pre : Db → Loc → Prop}

theorem finished_lasting (job : JobId) :
    (backend cfg).Lasting fun db => db.historyOf job ≠ none := by
  have found : ∀ db : Db, db.historyOf job ≠ none ↔
      ∃ row ∈ db.history.rows, row.id = job := by
    intro db
    simp [Db.historyOf, List.find?_eq_none]
  apply lasting_of
  · intro db theirs other stage _ _ _ holds
    obtain ⟨row, member, isJob⟩ := (found db).mp holds
    exact (found _).mpr ⟨row, history_after_kept member, isJob⟩
  · intro db next same holds
    rw [Db.historyOf, same.history]
    exact holds

/-- The call has written nothing yet. -/
def Unwritten (state : Loc) : Prop :=
  state.pending = [] ∧ state.written = []

/-- The call has written nothing, and the job has a live row. -/
def Attached (job : JobId) (db : Db) (state : Loc) : Prop :=
  Unwritten state ∧ db.live.get job ≠ none

theorem present_lasts :
    (backend cfg).Lasts (sparing job) fun db _ => db.live.get job ≠ none :=
  fun _ _ _ mild _ _ holds => mild.kept holds

theorem attached_lasts :
    (backend cfg).Lasts (sparing job) (Attached job) :=
  Lasts.and .local present_lasts

theorem ask_yields {query : Db → β} {known : β → Db → Loc → Prop}
    {fails : Exc → Db → Loc → Prop}
    (lasts : (backend cfg).Lasts (sparing job) pre)
    (lastsKnown : ∀ value, (backend cfg).Lasts (sparing job) (known value))
    (answers : ∀ db state, pre db state →
      known (query (after state.pending db)) db state) :
    (backend cfg).Yields (sparing job) pre (read query : Sql β) known fails :=
  .read lasts lastsKnown fun db state _ _ holds => answers db state holds

/-- A read that nothing is made of. -/
theorem look_yields {query : Db → β} {fails : Exc → Db → Loc → Prop}
    (lasts : (backend cfg).Lasts (sparing job) pre) :
    (backend cfg).Yields (sparing job) pre (read query : Sql β)
      (fun _ => pre) fails :=
  ask_yields lasts (fun _ => lasts) fun _ _ holds => holds

/-- One step of a script that raises nothing but what `fails` says. -/
theorem then_yields {middle : γ → Db → Loc → Prop} {first : Sql γ}
    {next : γ → Sql β} {post : β → Db → Loc → Prop}
    {fails : Exc → Loc → Prop}
    (begins : (backend cfg).Yields (sparing job) pre first middle
      fun exception _ => fails exception)
    (rest : ∀ value, (backend cfg).Yields (sparing job) (middle value)
      (next value) post fun exception _ => fails exception) :
    (backend cfg).Yields (sparing job) pre (first >>= next) post
      fun exception _ => fails exception :=
  .bind (spares_chains job) (fun _ => .local) begins rest

/-- The result of the first look-up. -/
def LookedUp (job : JobId) (found : Option Found) (db : Db) (state : Loc) :
    Prop :=
  match found with
  | some (.live _) => Attached job db state
  | some (.finished _) => Unwritten state
  | some (.staged _) => False
  | none => False

theorem lookedUp_lasts (found : Option Found) :
    (backend cfg).Lasts (sparing job) (LookedUp job found) := by
  match found with
  | some (.live _) => exact attached_lasts
  | some (.finished _) => exact .local
  | some (.staged _) => exact .local
  | none => exact .local

theorem onRecord_lasts :
    (backend cfg).Lasts (sparing job) fun db state =>
      Unwritten state ∧ OnRecord job db := by
  rintro first second state mild _ _ ⟨unwritten, live | finished⟩
  · exact ⟨unwritten, Or.inl (mild.kept live)⟩
  · exact ⟨unwritten, Or.inr ((finished_lasting job).env mild.env finished)⟩

theorem finished_lasts :
    (backend cfg).Lasts (sparing job) fun db state =>
      Unwritten state ∧ db.historyOf job ≠ none := by
  rintro first second state mild _ _ ⟨unwritten, finished⟩
  exact ⟨unwritten, (finished_lasting job).env mild.env finished⟩

theorem LookedUp.rolledBack {found : Option Found} {db : Db} {state : Loc}
    (holds : LookedUp job found db state) :
    LookedUp job found db state.rolledBack := by
  cases found with
  | none => exact holds
  | some answer =>
      cases answer with
      | live row => exact ⟨⟨rfl, holds.1.2⟩, holds.2⟩
      | finished row => exact ⟨rfl, holds.2⟩
      | staged row => exact holds

/-- The first of the two reads. -/
def FoundLive (job : JobId) (found : Option Job) (db : Db) (state : Loc) :
    Prop :=
  match found with
  | some _ => Attached job db state
  | none => Unwritten state ∧ db.historyOf job ≠ none

theorem foundLive_yields :
    (backend cfg).Yields (sparing job)
      (fun db state => Unwritten state ∧ OnRecord job db)
      (read fun db => db.live.get job : Sql (Option Job)) (FoundLive job)
      fun _ _ _ => False := by
  apply ask_yields onRecord_lasts
  · intro found
    cases found with
    | some row => exact attached_lasts
    | none => exact finished_lasts
  · rintro db state ⟨unwritten, onRecord⟩
    rw [unwritten.1, after_nil]
    cases found : db.live.get job with
    | some row => exact ⟨unwritten, by simp [found]⟩
    | none => exact ⟨unwritten, onRecord.resolve_left (by simp [found])⟩

/-- The second, when there was no live row. -/
def FoundFinished (found : Option Job) (_ : Db) (state : Loc) : Prop :=
  found ≠ none ∧ Unwritten state

theorem foundFinished_yields :
    (backend cfg).Yields (sparing job)
      (fun db state => Unwritten state ∧ db.historyOf job ≠ none)
      (read fun db => db.historyOf job : Sql (Option Job)) FoundFinished
      fun _ _ _ => False := by
  apply ask_yields finished_lasts (fun _ => .local)
  rintro db state ⟨unwritten, isFinished⟩
  rw [unwritten.1, after_nil]
  exact ⟨isFinished, unwritten⟩

theorem openAttemptIfQueued_yields (row : Job)
    {fails : Exc → Db → Loc → Prop} :
    (backend cfg).Yields (sparing job) (Attached job)
      (openAttemptIfQueued row) (fun _ => Attached job) fails := by
  unfold openAttemptIfQueued
  split
  · exact look_yields attached_lasts
  · exact .pure attached_lasts fun _ _ _ _ holds => holds

theorem getJobById_yields :
    (backend cfg).Yields (sparing job)
      (fun db state => Unwritten state ∧ OnRecord job db)
      (getJobById cfg job) (LookedUp job) fun _ _ _ => False := by
  have body : (backend cfg).Yields (sparing job)
      (fun db state => Unwritten state ∧ OnRecord job db)
      (do
        match ← read fun db => db.live.get job with
        | some row => do
            let attempt ← openAttemptIfQueued row
            pure (some (.live (overlayRunning row attempt)))
        | none => do
            match ← read fun db => db.historyOf job with
            | some row => pure (some (.finished row))
            | none =>
                if cfg.partitionedPg then
                  read fun db => (db.staged.get job).map .staged
                else pure none : Sql (Option Found))
      (LookedUp job) fun _ _ _ => False := by
    refine then_yields foundLive_yields fun found => ?_
    cases found with
    | some row =>
        exact then_yields (openAttemptIfQueued_yields row) fun attempt =>
          .pure attached_lasts fun _ _ _ _ holds => holds
    | none =>
        refine then_yields foundFinished_yields fun finished => .fact
          fun isFinished => ?_
        cases finished with
        | some row => exact .pure .local fun _ _ _ _ holds => holds
        | none => exact (isFinished rfl).elim
  exact .session (spares_chains job) body lookedUp_lasts (fun _ => .local)
    lookedUp_lasts (fun _ => .local) (fun _ _ _ _ holds => holds.rolledBack)
    fun _ _ _ _ fails => fails

end Reads

/-! ## The transaction of a completion -/

section Completing

variable {cfg : Config} {job : JobId} {handle : AttemptHandle}
variable {status : Status} {values : Values} {outcome : Outcome}

/-- Nothing is committed, and the pending writes close the attempt named. -/
def Closing (handle : AttemptHandle) (state : Loc) : Prop :=
  state.written = [] ∧ Closes handle.id state.pending

/-- The transaction has closed attempts and done nothing else; on SQLite it is
the writer. -/
structure Ending (cfg : Config) (job : JobId) (handle : AttemptHandle)
    (db : Db) (state : Loc) : Prop where
  closing : Closing handle state
  only : ∀ write ∈ state.pending, ∃ id owner now outcome,
    write = .closeAttempt id owner now outcome
  writer : ∀ lock ∈ writerLock cfg.dialect, lock ∈ state.held
  present : db.live.get job ≠ none

theorem ending_lasts :
    (backend cfg).Lasts (sparing job) (Ending cfg job handle) :=
  fun _ _ _ mild _ _ holds =>
    ⟨holds.closing, holds.only, holds.writer, mild.kept holds.present⟩

/-- Closing attempts leaves the live rows alone. -/
theorem view_of_closes {writes : List Write} {db : Db}
    (only : ∀ write ∈ writes, ∃ id owner now outcome,
      write = .closeAttempt id owner now outcome) :
    (after writes db).live.get job = db.live.get job := by
  apply live_after_untouched
  intro write member
  obtain ⟨id, owner, now, outcome, rfl⟩ := only write member
  simp [Write.rowLock]

/-- What is raised is a fencing error, and nothing is committed. -/
def Rejected (exception : Exc) (state : Loc) : Prop :=
  (∃ message, exception = .fencing message) ∧ state.written = []

/-- The attempts a close by handle has closed. -/
def ClosedBy (cfg : Config) (job : JobId) (handle : AttemptHandle)
    (count : Nat) (db : Db) (state : Loc) : Prop :=
  state.written = [] ∧ (count = 1 → Ending cfg job handle db state)

theorem closedBy_lasts (count : Nat) :
    (backend cfg).Lasts (sparing job) (ClosedBy cfg job handle count) :=
  fun first second state mild good guarded holds =>
    ⟨holds.1, fun single =>
      ending_lasts first second state mild good guarded (holds.2 single)⟩

/-- What a statement that changes rows does. -/
structure Changed {K V : Type} [DecidableEq K] {key : V → K} (cfg : Config)
    (table : Db → Table key) (admits : Db → V → Bool) (write : V → Write)
    (snapshot current : Db) (effect : Effect Write Lock (List V)) : Prop where
  rows : effect.result =
    targets table admits (basis cfg.dialect snapshot current) current
  writes : effect.writes = effect.result.map write
  locks : effect.locks = writerLock cfg.dialect
  atOnce : effect.atOnce = []

theorem changed_of_dml {K V : Type} [DecidableEq K] {key : V → K}
    {table : Db → Table key} {admits : Db → V → Bool} {write : V → Write}
    {snapshot current : Db} {others : Others Lock}
    {effect : Effect Write Lock (List V)}
    (ran : dml table cfg admits write snapshot current others =
      some effect) :
    Changed cfg table admits write snapshot current effect := by
  cases ran
  exact ⟨rfl, rfl, rfl, rfl⟩

theorem closeExact_yields (now : Time) {fails : Exc → Loc → Prop} :
    (backend cfg).Yields (sparing job) (Attached job)
      (closeExactStmt cfg handle outcome now) (ClosedBy cfg job handle)
      fun exception _ => fails exception := by
  have closes : (backend cfg).Yields (sparing job) (Attached job)
      (exec (dml Db.attempts cfg
        (fun _ attempt => handle.names attempt && attempt.isOpen)
        (closing now outcome)) : Sql (List Attempt))
      (fun closed => ClosedBy cfg job handle closed.length)
      fun exception _ => fails exception := by
    apply Yields.exec attached_lasts fun closed => closedBy_lasts _
    intro snapshot current state others effect _ _ _ _ _ attached ran
    have changed := changed_of_dml ran
    refine ⟨attached.1.2, fun single => ?_⟩
    obtain ⟨ended, isEnded⟩ := List.length_eq_one_iff.mp single
    have member : ended ∈ effect.result := by simp [isEnded]
    rw [changed.rows] at member
    have named := (mem_targets_iff.mp member).2.1
    simp only [AttemptHandle.names, Bool.and_eq_true, decide_eq_true_eq]
      at named
    have isPending : (state.extend effect.writes
        ((backend cfg).sys.acquired effect)).pending =
        [closing now outcome ended] := by
      simp [Local.extend, attached.1.1, changed.writes, isEnded]
    constructor
    · refine ⟨attached.1.2, closing now outcome ended, ?_, ?_⟩
      · exact isPending ▸ List.mem_singleton_self _
      · exact ⟨ended.jobId, now, outcome, by rw [closing, named.1.1]⟩
    · intro write isWrite
      rw [isPending, List.mem_singleton] at isWrite
      exact ⟨_, _, _, _, isWrite⟩
    · intro lock isLock
      rw [← changed.locks] at isLock
      exact List.mem_append_right _ (List.mem_append_left _ isLock)
    · rw [changed.atOnce]
      exact attached.2
  exact then_yields closes fun closed =>
    .pure (closedBy_lasts _) fun _ _ _ _ holds => holds

/-- The close raises unless it closed the attempt named. -/
theorem closeAttempt_yields :
    (backend cfg).Yields (sparing job) (Attached job)
      (closeAttempt cfg job (some handle) outcome)
      (fun _ => Ending cfg job handle)
      fun exception _ => Rejected exception := by
  refine then_yields (look_yields attached_lasts) fun now =>
    then_yields (closeExact_yields now) fun count => ?_
  by_cases single : count = 1
  · simp only [decideClose, single, ne_eq, not_true_eq_false, if_false]
    exact .pure (closedBy_lasts 1) fun _ _ _ _ holds => holds.2 rfl
  · simp only [decideClose, single, ne_eq, not_false_eq_true, if_true]
    exact .raise (closedBy_lasts count) fun _ _ _ holds =>
      ⟨⟨_, rfl⟩, holds.1⟩

/-! ## The move into history -/

variable {version : Option Nat} {row : Job} {β : Type}

/-- The row is the one the completion asks for. -/
def Wanted (job : JobId) (version : Option Nat) (row : Job) : Prop :=
  row.id = job ∧ ∀ expected, version = some expected → row.version = expected

theorem admits_iff {db : Db} :
    MoveFence.admits { jobId := job, expectedVersion := version } db row =
      true ↔ Wanted job version row := by
  cases version with
  | none => simp [MoveFence.admits, Wanted]
  | some expected => simp [MoveFence.admits, Wanted]

theorem wanted_of_none (isJob : row.id = job) : Wanted job none row :=
  ⟨isJob, fun _ isSome => by cases isSome⟩

/-- The live row is locked and untouched. -/
structure Holding (cfg : Config) (job : JobId) (handle : AttemptHandle)
    (row : Job) (db : Db) (state : Loc) : Prop where
  closing : Closing handle state
  locked : Locked cfg job (some row) db state
  untouched : ∀ write ∈ state.pending, write.rowLock ≠ some (.live job)

theorem holding_lasts :
    (backend cfg).Lasts (sparing job) (Holding cfg job handle row) :=
  fun first second state mild good guarded holds =>
    ⟨holds.closing,
      locked_stable job _ first second state mild.env good.inv guarded
        holds.locked,
      holds.untouched⟩

theorem Holding.view {db : Db} {state : Loc}
    (holds : Holding cfg job handle row db state) :
    (after state.pending db).live.get job = some row :=
  (live_after_untouched holds.untouched).trans holds.locked.2

/-- More writes that leave live rows alone. -/
theorem Holding.extend {db : Db} {state : Loc}
    (holds : Holding cfg job handle row db state) {writes : List Write}
    {locks : List Lock}
    (elsewhere : ∀ write ∈ writes, write.rowLock ≠ some (.live job)) :
    Holding cfg job handle row db (state.extend writes locks) where
  closing := by
    obtain ⟨first, write, member, isClose⟩ := holds.closing
    exact ⟨first, write, List.mem_append_left _ member, isClose⟩
  locked := ⟨List.mem_append_left _ holds.locked.1, holds.locked.2⟩
  untouched := by
    intro write member
    rcases List.mem_append.mp member with old | new
    · exact holds.untouched write old
    · exact elsewhere write new

/-- What the lock of the move found. -/
def LockedFor (cfg : Config) (job : JobId) (handle : AttemptHandle)
    (version : Option Nat) (rows : List Job) (db : Db) (state : Loc) : Prop :=
  (rows = [] → version ≠ none ∧ state.written = []) ∧
    (rows ≠ [] → ∃ row, Wanted job version row ∧
      Holding cfg job handle row db state)

theorem lockedFor_lasts (rows : List Job) :
    (backend cfg).Lasts (sparing job)
      (LockedFor cfg job handle version rows) := by
  intro first second state mild good guarded holds
  refine ⟨holds.1, fun found => ?_⟩
  obtain ⟨row, wanted, holding⟩ := holds.2 found
  exact ⟨row, wanted,
    holding_lasts first second state mild good guarded holding⟩

/-- The row is locked, and only attempts were closed. -/
theorem Ending.holding {db : Db} {state : Loc}
    (holds : Ending cfg job handle db state) (locks : List Lock)
    (found : (after state.pending db).live.get job = some row)
    (owned : Owns cfg.dialect (state.extend [] locks) (.live job)) :
    Holding cfg job handle row db (state.extend [] locks) where
  closing := by simpa [Closing, Local.extend] using holds.closing
  locked := ⟨owned, (view_of_closes holds.only).symm.trans found⟩
  untouched := by
    intro write member
    simp only [Local.extend, List.append_nil] at member
    obtain ⟨id, owner, now, outcome, rfl⟩ := holds.only write member
    simp [Write.rowLock]

theorem Ending.present_view {db : Db} {state : Loc}
    (holds : Ending cfg job handle db state) :
    ∃ row, (after state.pending db).live.get job = some row := by
  rw [view_of_closes holds.only]
  exact Option.ne_none_iff_exists'.mp holds.present

theorem lockForMove_yields {fails : Exc → Loc → Prop} :
    (backend cfg).Yields (sparing job) (Ending cfg job handle)
      (lockForMove cfg { jobId := job, expectedVersion := version })
      (LockedFor cfg job handle version)
      fun exception _ => fails exception := by
  unfold lockForMove
  cases isDialect : cfg.dialect with
  | postgresql =>
      apply Yields.exec ending_lasts lockedFor_lasts
      intro snapshot current state others effect _ _ _ _ atSnapshot atCurrent
        ran
      cases ran
      constructor
      · intro nothing
        refine ⟨?_, atCurrent.closing.1⟩
        rintro rfl
        obtain ⟨old, isOld⟩ := atSnapshot.present_view
        obtain ⟨new, isNew⟩ := atCurrent.present_view
        have keyed : new.id = job := Table.key_of_get isNew
        have empty : targets Db.live
            (MoveFence.admits { jobId := job, expectedVersion := none })
            (after state.pending snapshot) (after state.pending current) = [] :=
          nothing
        have member : new ∈ targets Db.live
            (MoveFence.admits { jobId := job, expectedVersion := none })
            (after state.pending snapshot) (after state.pending current) := by
          apply mem_targets_iff.mpr
          rw [show Job.id new = job from keyed]
          exact ⟨isNew, admits_iff.mpr (wanted_of_none keyed), old, isOld,
            admits_iff.mpr (wanted_of_none (Table.key_of_get isOld))⟩
        rw [empty] at member
        cases member
      · intro some
        obtain ⟨found, isFound⟩ := List.exists_mem_of_ne_nil _ some
        obtain ⟨isCurrent, isAdmitted, _⟩ := mem_targets_iff.mp isFound
        have wanted : Wanted job version found := admits_iff.mp isAdmitted
        rw [show Job.id found = job from wanted.1] at isCurrent
        refine ⟨found, wanted, atCurrent.holding _ isCurrent ?_⟩
        rw [Owns, isDialect]
        refine List.mem_append_right _ (List.mem_append_left _ ?_)
        exact List.mem_map.mpr ⟨found, isFound, by rw [wanted.1]; rfl⟩
  | sqlite =>
      apply ask_yields ending_lasts lockedFor_lasts
      intro db state holds
      constructor
      · intro nothing
        refine ⟨?_, holds.closing.1⟩
        rintro rfl
        obtain ⟨found, isFound⟩ := holds.present_view
        have member : found ∈ (after state.pending db).live.rows.filter
            (MoveFence.admits { jobId := job, expectedVersion := none }
              (after state.pending db)) := by
          apply List.mem_filter.mpr
          exact ⟨Table.mem_of_get isFound,
            admits_iff.mpr (wanted_of_none (Table.key_of_get isFound))⟩
        exact List.not_mem_nil (nothing ▸ member)
      · intro some
        obtain ⟨found, isFound⟩ := List.exists_mem_of_ne_nil _ some
        obtain ⟨member, isAdmitted⟩ := List.mem_filter.mp isFound
        have wanted : Wanted job version found := admits_iff.mp isAdmitted
        have isCurrent := Table.get_of_mem member
        rw [show Job.id found = job from wanted.1] at isCurrent
        have owned : Owns cfg.dialect (state.extend [] []) (.live job) := by
          apply owns_of_writer _ isDialect
          intro lock isLock
          exact List.mem_append_left _ (holds.writer lock isLock)
        have holding := holds.holding [] isCurrent owned
        have same : state.extend [] [] = state := by simp [Local.extend]
        exact ⟨found, wanted, same ▸ holding⟩

theorem targets_of_get {snapshot current : Db} {admits : Db → Job → Bool}
    (before : snapshot.live.get job = some row)
    (now : current.live.get job = some row)
    (isAdmitted : admits snapshot row = true)
    (keyed : ∀ other, admits snapshot other = true → other.id = job) :
    targets Db.live admits snapshot current = [row] := by
  have isJob : Job.id row = job := Table.key_of_get now
  refine Table.eq_singleton nodup_targets ?_ ?_
  · apply mem_targets_iff.mpr
    rw [isJob]
    exact ⟨now, isAdmitted, row, before, isAdmitted⟩
  · intro other member
    obtain ⟨isCurrent, isOther, _⟩ := mem_targets_iff.mp member
    rw [show Job.id other = job from keyed other isOther, now] at isCurrent
    exact (Option.some.inj isCurrent).symm

/-- A statement that finds the locked row, whatever data it looks at. -/
theorem basis_view {snapshot current : Db} {state : Loc}
    (atSnapshot : Holding cfg job handle row snapshot state)
    (atCurrent : Holding cfg job handle row current state) :
    (basis cfg.dialect (after state.pending snapshot)
      (after state.pending current)).live.get job = some row := by
  cases cfg.dialect with
  | postgresql => exact atSnapshot.view
  | sqlite => exact atCurrent.view

theorem insertHistory_yields (now : Time) (wanted : Wanted job version row)
    {fails : Exc → Loc → Prop} :
    (backend cfg).Yields (sparing job) (Holding cfg job handle row)
      (insertHistory cfg { jobId := job, expectedVersion := version } status
        values now)
      (fun rows db state => rows.length = 1 ∧
        Holding cfg job handle row db state)
      fun exception _ => fails exception := by
  refine Yields.exec holding_lasts (fun _ => Lasts.and .local holding_lasts)
    ?_
  intro snapshot current state others effect _ _ _ _ atSnapshot atCurrent ran
  cases ran
  let db := basis cfg.dialect (after state.pending snapshot)
    (after state.pending current)
  have isAdmitted : MoveFence.admits
      { jobId := job, expectedVersion := version } db row = true :=
    admits_iff.mpr wanted
  have found := Table.filter_of_get (basis_view atSnapshot atCurrent) isAdmitted
    fun other isOther => (admits_iff.mp isOther).1
  constructor
  · rw [List.length_map]
    exact congrArg List.length found
  · apply atCurrent.extend
    intro write member
    obtain ⟨moved, _, rfl⟩ := List.mem_map.mp member
    simp [Write.rowLock]

theorem deleteLive_yields (wanted : Wanted job version row)
    {fails : Exc → Loc → Prop} :
    (backend cfg).Yields (sparing job) (Holding cfg job handle row)
      (deleteLive cfg { jobId := job, expectedVersion := version })
      (fun count _ state => count = 1 ∧ Closing handle state)
      fun exception _ => fails exception := by
  have deletes : (backend cfg).Yields (sparing job)
      (Holding cfg job handle row)
      (exec (dml Db.live cfg
        (MoveFence.admits { jobId := job, expectedVersion := version })
        fun row => .deleteLive row.id) : Sql (List Job))
      (fun rows _ state => rows.length = 1 ∧ Closing handle state)
      fun exception _ => fails exception := by
    refine Yields.exec holding_lasts (fun _ => .local) ?_
    intro snapshot current state others effect _ _ _ _ atSnapshot atCurrent
      ran
    have changed := changed_of_dml ran
    have found := targets_of_get (basis_view atSnapshot atCurrent)
      atCurrent.view (admits_iff.mpr wanted)
      fun other isOther => (admits_iff.mp isOther).1
    constructor
    · rw [changed.rows]
      exact congrArg List.length found
    · obtain ⟨first, write, member, isClose⟩ := atCurrent.closing
      exact ⟨first, write, List.mem_append_left _ member, isClose⟩
  exact then_yields deletes fun rows =>
    .pure .local fun _ _ _ _ holds => holds

/-- The transaction may do more before it commits. -/
theorem more_yields {statement : Stmt β} {fails : Exc → Loc → Prop} :
    (backend cfg).Yields (sparing job) (fun _ state => Closing handle state)
      (exec statement : Sql β) (fun _ _ state => Closing handle state)
      fun exception _ => fails exception := by
  refine Yields.exec .local (fun _ => .local) ?_
  rintro snapshot current state others effect _ _ _ _ _
    ⟨first, write, member, isClose⟩ _
  exact ⟨first, write, List.mem_append_left _ member, isClose⟩

/-- The outcome is written, unless a fence rejects the row. -/
def Written (handle : AttemptHandle) (version : Option Nat) (applied : Bool)
    (_ : Db) (state : Loc) : Prop :=
  if applied then Closing handle state
  else version ≠ none ∧ state.written = []

theorem closeStragglers_yields (now : Time) {fails : Exc → Loc → Prop} :
    (backend cfg).Yields (sparing job) (fun _ state => Closing handle state)
      (closeStragglersStmt cfg job status now)
      (fun _ _ state => Closing handle state)
      fun exception _ => fails exception :=
  then_yields more_yields fun _ => .pure .local fun _ _ _ _ holds => holds

/-- The row that is locked is moved. -/
theorem moveLocked_yields (now : Time) {fails : Exc → Loc → Prop} :
    (backend cfg).Yields (sparing job)
      (fun db state => ∃ row, Wanted job version row ∧
        Holding cfg job handle row db state)
      (do
        let inserted ← insertHistory cfg
          { jobId := job, expectedVersion := version } status values now
        let deleted ← deleteLive cfg
          { jobId := job, expectedVersion := version }
        if inserted.length = 1 && deleted = 1 then do
          let now ← currentTime
          let _ ← closeStragglersStmt cfg job status now
          pure true
        else
          raise (.runtime (s!"moving job {job} to history touched an " ++
            "unexpected row count")) : Sql Bool)
      (Written handle version) fun exception _ => fails exception := by
  refine .exists_ fun row => .fact fun wanted => ?_
  refine then_yields (insertHistory_yields now wanted) fun inserted =>
    .fact fun one => then_yields (deleteLive_yields wanted) fun deleted =>
      .fact fun single => ?_
  simp only [one, single, decide_true, Bool.and_true, if_true]
  exact then_yields (look_yields .local) fun later =>
    then_yields (closeStragglers_yields later) fun closed =>
      .pure .local fun _ _ _ _ holds => holds

theorem finishIn_yields {fails : Exc → Loc → Prop} :
    (backend cfg).Yields (sparing job) (Ending cfg job handle)
      (finishIn cfg { jobId := job, expectedVersion := version } status values)
      (Written handle version) fun exception _ => fails exception := by
  refine then_yields (look_yields ending_lasts) fun now =>
    then_yields lockForMove_yields fun rows => ?_
  by_cases nothing : rows = []
  · rw [if_pos nothing]
    exact .pure (lockedFor_lasts rows) fun _ _ _ _ holds => holds.1 nothing
  · rw [if_neg nothing]
    exact (moveLocked_yields now).weaken fun _ _ _ holds => holds.2 nothing

/-! ## `_fenced_update` -/

/-- A failure that will be retried is recorded in place. -/
theorem updateLive_yields (change : Job → Job) {fails : Exc → Loc → Prop} :
    (backend cfg).Yields (sparing job) (Ending cfg job handle)
      (updateLive cfg
        (fun _ row => row.id = job &&
          version.all fun expected => row.version = expected) change)
      (fun updated => Written handle version (0 < updated))
      fun exception _ => fails exception := by
  have updates : (backend cfg).Yields (sparing job) (Ending cfg job handle)
      (exec (dml Db.live cfg
        (fun _ row => row.id = job &&
          version.all fun expected => row.version = expected)
        fun row => .setLive (change row)) : Sql (List Job))
      (fun rows => Written handle version (0 < rows.length))
      fun exception _ => fails exception := by
    refine Yields.exec ending_lasts (fun _ => .local) ?_
    intro snapshot current state others effect _ _ _ _ atSnapshot atCurrent
      ran
    have changed := changed_of_dml ran
    by_cases nothing : effect.result = []
    · simp only [Written, nothing, List.length_nil, Nat.lt_irrefl,
        decide_false]
      refine ⟨?_, atCurrent.closing.1⟩
      rintro rfl
      obtain ⟨old, isOld⟩ : ∃ old, (basis cfg.dialect
          (after state.pending snapshot)
          (after state.pending current)).live.get job = some old := by
        cases cfg.dialect with
        | postgresql => exact atSnapshot.present_view
        | sqlite => exact atCurrent.present_view
      obtain ⟨new, isNew⟩ := atCurrent.present_view
      have keyed : Job.id new = job := Table.key_of_get isNew
      have isJob : Job.id old = job := Table.key_of_get isOld
      have member : new ∈ effect.result := by
        rw [changed.rows]
        apply mem_targets_iff.mpr
        rw [keyed]
        exact ⟨isNew, by simp, old, isOld, by simp [isJob]⟩
      rw [nothing] at member
      cases member
    · simp only [Written, List.length_pos_iff.mpr nothing, decide_true,
        if_true]
      obtain ⟨first, write, member, isClose⟩ := atCurrent.closing
      exact ⟨first, write, List.mem_append_left _ member, isClose⟩
  exact then_yields updates fun rows =>
    .pure .local fun _ _ _ _ holds => holds

theorem recordOutcome_yields {fails : Exc → Loc → Prop} :
    (backend cfg).Yields (sparing job) (Ending cfg job handle)
      (recordOutcome cfg job version status values)
      (Written handle version) fun exception _ => fails exception := by
  unfold recordOutcome
  split
  · exact then_yields (updateLive_yields _) fun updated =>
      .pure .local fun _ _ _ _ holds => holds
  · exact finishIn_yields

/-- The call has closed the attempt named. -/
def Accounted (handle : AttemptHandle) (state : Loc) : Prop :=
  Closes handle.id state.written

theorem closes_append (writes more : List Write)
    (closed : Closes handle.id writes) : Closes handle.id (writes ++ more) := by
  obtain ⟨write, member, isClose⟩ := closed
  exact ⟨write, List.mem_append_left _ member, isClose⟩

theorem commit_yields {fails : Exc → Loc → Prop} :
    (backend cfg).Yields (sparing job) (fun _ state => Closing handle state)
      (commit : Sql Unit) (fun _ _ state => Accounted handle state)
      fun exception _ => fails exception := by
  refine .commit .local .local ?_
  rintro db state _ _ ⟨_, write, member, isClose⟩
  exact ⟨trivial, fun _ => ⟨write, List.mem_append_right _ member, isClose⟩⟩

/-- What follows the commit raises nothing. -/
theorem releaseQuietly_yields (parent : Option JobId)
    {fails : Exc → Loc → Prop} :
    (backend cfg).Yields (sparing job) (fun _ state => Accounted handle state)
      (releaseDependentsQuietly cfg job parent)
      (fun _ _ state => Accounted handle state)
      fun exception _ => fails exception :=
  .quietly (spares_chains job) .local
    (.committed closes_append fun _ _ => trivial)

theorem fencedUpdate_yields (parent : Option JobId) :
    (backend cfg).Yields (sparing job) (Attached job)
      (fencedUpdate cfg job version status values (some handle) outcome parent)
      (fun _ _ state => Accounted handle state)
      fun exception _ => Rejected exception := by
  refine then_yields closeAttempt_yields fun _ =>
    then_yields recordOutcome_yields fun applied => ?_
  cases applied with
  | true =>
      have releases : (backend cfg).Yields (sparing job)
          (fun _ state => Accounted handle state)
          (whenever ((status = .success || status = .failed) &&
              !isRetryPending (values.terminationReason.getD ""))
            (releaseDependentsQuietly cfg job parent))
          (fun _ _ state => Accounted handle state)
          fun exception _ => Rejected exception := by
        unfold whenever
        split
        · exact releaseQuietly_yields parent
        · exact .pure .local fun _ _ _ _ holds => holds
      have finds : (backend cfg).Yields (sparing job)
          (fun _ state => Accounted handle state) (findJob job)
          (fun _ _ state => Accounted handle state)
          fun exception _ => Rejected exception := by
        refine then_yields (look_yields .local) fun found => ?_
        cases found with
        | some row => exact .pure .local fun _ _ _ _ holds => holds
        | none => exact look_yields .local
      exact then_yields commit_yields fun _ =>
        then_yields releases fun _ => finds
  | false =>
      have undone : (backend cfg).Yields (sparing job)
          (Written handle version false) (rollback : Sql Unit)
          (fun _ _ state => version ≠ none ∧ state.written = [])
          fun exception _ => Rejected exception :=
        .rollback .local .local fun _ _ _ holds => holds
      refine then_yields undone fun _ => .fact fun isSome => ?_
      cases version with
      | none => exact (isSome rfl).elim
      | some expected =>
          exact .raise .local fun _ _ _ holds => ⟨⟨_, rfl⟩, holds⟩

/-- The completion of a job that was found live. -/
theorem markLive_yields (mark : Job → Time → Job) (values : Job → Values)
    (live : Job) :
    (backend cfg).Yields (sparing job) (Attached job)
      (do
        match ← read fun db => db.live.get job with
        | none => pure (some (.live live))
        | some row => do
            let running ← openAttemptsIn job
            let now ← currentTime
            let marked := mark (overlayRunning row running) now
            fencedUpdate cfg job version marked.status
              ((values marked).withAttempt running) (some handle) outcome
              row.parentJobId : Sql (Option Found))
      (fun _ _ state => Accounted handle state)
      fun exception _ => Rejected exception := by
  have again : (backend cfg).Yields (sparing job) (Attached job)
      (read fun db => db.live.get job : Sql (Option Job))
      (fun found db state => found ≠ none ∧ Attached job db state)
      fun exception _ => Rejected exception := by
    refine ask_yields attached_lasts
      (fun _ => Lasts.and .local attached_lasts) ?_
    intro db state attached
    rw [attached.1.1, after_nil]
    exact ⟨attached.2, attached⟩
  refine then_yields again fun found => .fact fun isFound => ?_
  cases found with
  | none => exact (isFound rfl).elim
  | some row =>
      exact then_yields (look_yields attached_lasts) fun running =>
        then_yields (look_yields attached_lasts) fun now =>
          fencedUpdate_yields row.parentJobId

/-- A completion with a handle returns when it closed the attempt and raises a
fencing error when it did not. -/
theorem markJob_yields (mark : Job → Time → Job) (values : Job → Values) :
    (backend cfg).Yields (sparing job)
      (fun db state => Unwritten state ∧ OnRecord job db)
      (markJob cfg job version (some handle) outcome mark values)
      (fun _ _ state => Accounted handle state)
      fun exception _ => Rejected exception := by
  have lookUp : (backend cfg).Yields (sparing job)
      (fun db state => Unwritten state ∧ OnRecord job db)
      (getJobById cfg job) (LookedUp job)
      fun exception _ => Rejected exception :=
    getJobById_yields.strengthen (fun _ _ _ _ holds => holds)
      fun _ _ _ _ fails => fails.elim
  refine then_yields lookUp fun found => ?_
  cases found with
  | none => exact fun _ _ _ _ fails => fails.elim
  | some found =>
      cases found with
      | finished row =>
          simp only [alreadyFinished, Option.isSome_some, Bool.or_true,
            if_true]
          exact .raise .local fun _ _ _ holds => ⟨⟨_, rfl⟩, holds.2⟩
      | staged row => exact fun _ _ _ _ fails => fails.elim
      | live live =>
          exact .session (spares_chains job)
            (markLive_yields mark values live) (fun _ => .local)
            (fun _ => .local) (fun _ => .local) (fun _ => .local)
            (fun _ _ _ _ holds => holds) fun _ _ _ _ holds => holds

end Completing

/-! ## Every completion of every run -/

/-- The job a completion with a handle is of. -/
def Call.reports : Call → Option (JobId × AttemptHandle)
  | .markJobSuccess job _ _ (some handle) => some (job, handle)
  | .markJobFailed job _ _ _ _ (some handle) => some (job, handle)
  | _ => none

/-- The report of a completion: a normal return says that the call closed the
attempt, and anything else is a fencing error. -/
structure Reports (handle : AttemptHandle) (value : Return) (state : Loc) :
    Prop where
  closed : value.isOk = true ↔ Closes handle.id state.written
  fenced : ∀ exception, value = .error exception →
    ∃ message, exception = .fencing message

theorem reports_of_rejected {handle : AttemptHandle} {exception : Exc}
    {state : Loc} (rejected : Rejected exception state) :
    Reports handle (.error exception) state where
  closed := by simp [rejected.2, Closes, Except.isOk, Except.toBool]
  fenced := by
    rintro _ ⟨⟩
    exact rejected.1

theorem reports_of_accounted {handle : AttemptHandle} {value : Result}
    {state : Loc} (accounted : Accounted handle state) :
    Reports handle (.ok value) state where
  closed := ⟨fun _ => accounted, fun _ => rfl⟩
  fenced := fun _ isError => by cases isError

theorem reports_of_markJob {cfg : Config} {job : JobId}
    {handle : AttemptHandle} {version : Option Nat} {outcome : Outcome}
    {mark : Job → Time → Job} {values : Job → Values} {db : Db}
    (inv : Inv db) (onRecord : OnRecord job db) :
    (backend cfg).Ends (sparing job) (fun value _ => Reports handle value)
      ((Result.found <$> markJob cfg job version (some handle) outcome mark
        values : Sql Result).run) db {} := by
  have yields : (backend cfg).Yields (sparing job)
      (fun db state => Unwritten state ∧ OnRecord job db)
      (Result.found <$> markJob cfg job version (some handle) outcome mark
        values : Sql Result)
      (fun _ _ state => Accounted handle state)
      fun exception _ => Rejected exception :=
    .map (spares_chains job) (fun _ => .local) (fun _ => .local)
      (markJob_yields mark values)
  refine (yields db {} ⟨inv, trivial⟩ (by simp [Guarded])
    ⟨⟨rfl, rfl⟩, onRecord⟩).mono ?_
  intro result db state _ ended
  cases result with
  | ok value => exact reports_of_accounted ended
  | error exception => exact reports_of_rejected ended

/-- A completion is started for a job that can be found, and ends with the
right report if nobody removes the live row meanwhile. -/
def completions (cfg : Config) : (backend cfg).Watch where
  watched call := call.reports.isSome
  before call := match call.reports with
    | some (job, _) => OnRecord job
    | none => fun _ => True
  terms call := match call.reports with
    | some (job, _) => sparing job
    | none => { keeps := fun _ _ => True }
  ending call value _ state := match call.reports with
    | some (_, handle) => Reports handle value state
    | none => True
  chains call := by
    cases call.reports with
    | some presented => exact spares_chains presented.1
    | none => exact ⟨fun _ => trivial, fun _ _ _ _ _ => trivial⟩
  ends call watched db fine before := by
    cases call with
    | markJobSuccess job output version attempt =>
        cases attempt with
        | some handle => exact reports_of_markJob fine.inv before
        | none => cases watched
    | markJobFailed job error traceback version reason attempt =>
        cases attempt with
        | some handle => exact reports_of_markJob fine.inv before
        | none => cases watched
    | _ => cases watched

/-- The transaction removes the live row of the job. -/
def Removes (job : JobId) (writes : List Write) : Prop :=
  ∃ write ∈ writes, removes job write

/-- A completion is started for a job that is live or in history, and while it
is under way no other transaction removes the live row. -/
structure LeftAlone {n : Nat} (state : World n)
    (action : Action Write Call n) : Prop where
  starts : ∀ process call job handle, action = .start process call →
    call.reports = some (job, handle) → OnRecord job state.db
  spares : ∀ process call job handle committer other,
    (state.session process).call = some call →
    call.reports = some (job, handle) →
    (state.session process).prog.idle = false →
    System.committing state action = some (committer, other) →
    committer ≠ process →
    ¬Removes job (state.session committer).state.pending

section Runs

variable {cfg : Config} {n : Nat} {state next : World n}
variable {action : Action Write Call n}

theorem spares_of_after {job : JobId} {writes : List Write} {db : Db}
    (kept : ¬Removes job writes) : Spares job db (after writes db) := by
  intro present
  obtain ⟨row, found⟩ := Option.ne_none_iff_exists'.mp present
  have stays : ∀ write ∈ writes, ¬removes job write :=
    fun write member gone => kept ⟨write, member, gone⟩
  obtain ⟨new, isNew, _⟩ := live_after_some found stays
  simp [isNew]

theorem respected (good : (backend cfg).Good (Returns cfg) state)
    (leftAlone : LeftAlone state action)
    (taken : (system cfg).act state action = some next) :
    (completions cfg).Respected state action next where
  starts := by
    intro process call isStart watched
    obtain ⟨⟨job, handle⟩, reports⟩ := Option.isSome_iff_exists.mp watched
    simp only [completions, reports]
    exact leftAlone.starts process call job handle isStart reports
  always := by
    intro process call isCall watched
    obtain ⟨⟨job, handle⟩, reports⟩ := Option.isSome_iff_exists.mp watched
    simp only [completions, reports]
  keeps := by
    intro process call isCall watched busy others
    obtain ⟨⟨job, handle⟩, reports⟩ := Option.isSome_iff_exists.mp watched
    simp only [completions, reports]
    rcases good.act_cases taken with ⟨committer, other, commits⟩ | quiet
    · have different : committer ≠ process :=
        others committer (by rw [commits.isStep]; rfl)
      rw [commits.db]
      exact spares_of_after (leftAlone.spares process call job handle
        committer other isCall reports busy commits.committing different)
    · intro present
      rw [(sameTables_of_drifts quiet.db).live]
      exact present

end Runs

/-- A completion that presents an attempt handle returns normally if and only
if it closed that attempt, and raises a fencing error otherwise, in every run
in which no other transaction removes the live row under it. -/
theorem completion_reports (cfg : Config) {n : Nat} {state : World n}
    (reached : Reached cfg LeftAlone state) {process : Fin n} {call : Call}
    {job : JobId} {handle : AttemptHandle} {value : Return}
    (isCall : (state.session process).call = some call)
    (reports : call.reports = some (job, handle))
    (returned : (state.session process).prog = .done value) :
    Reports handle value (state.session process).state := by
  have holds : (completions cfg).Holds state := by
    apply reached.induct
    · exact fun tasks workers clock => (completions cfg).holds_initial _
    · intro state action next before ih leftAlone taken
      have good := before.good
      exact (completions cfg).holds_act good
        (before.step leftAlone taken).good ih taken
        (respected good leftAlone taken)
  have watched : (completions cfg).watched call := by
    simp [completions, reports]
  obtain ⟨db, _, ended⟩ :=
    (holds process call isCall watched).2.ended value returned
  simpa [completions, reports] using ended

/-- Decides `LeftAlone`. -/
def leavesAlone {n : Nat} (state : World n) : Action Write Call n → Bool
  | .start _ call =>
      match call.reports with
      | some (job, _) => (state.db.live.get job).isSome ||
          (state.db.historyOf job).isSome
      | none => true
  | .step committer =>
      (List.finRange n).all fun process =>
        process = committer || (state.session process).prog.idle ||
          match (state.session process).call.bind Call.reports with
          | some (job, _) =>
              (state.session committer).state.pending.all fun write =>
                write ≠ .deleteLive job && write ≠ .discardLive job
          | none => true
  | _ => true

theorem leftAlone_of_check {n : Nat} (state : World n)
    (action : Action Write Call n)
    (checked : leavesAlone state action = true) : LeftAlone state action := by
  constructor
  · rintro process call job handle rfl reports
    simp only [leavesAlone, reports, Bool.or_eq_true,
      Option.isSome_iff_ne_none] at checked
    exact checked
  · rintro process call job handle committer other isCall reports busy
      committing different ⟨write, member, gone⟩
    cases action with
    | start process call => cases committing
    | crash process => cases committing
    | ambient write => cases committing
    | step actor =>
        simp only [System.committing] at committing
        split at committing
        · obtain ⟨call, _, isCommitter⟩ := Option.map_eq_some_iff.mp committing
          cases isCommitter
          simp only [leavesAlone, List.all_eq_true, List.mem_finRange,
            true_implies] at checked
          have kept := checked process
          simp only [different.symm, decide_false, busy, isCall,
            Option.bind_some, reports, Bool.false_or, List.all_eq_true]
            at kept
          have stays := kept write member
          rcases gone with rfl | rfl <;> simp at stays
        · cases committing

/-- A job is completed while another process creates a second one. -/
def completingBeside : List (Action Write Call 2) :=
  makes 0 (.createJob {}) 13 ++
    makes 0 (.claimJob ["default"] "worker") 12 ++
    makes 0 (.markJobSuccess 1 "done" none (some firstHandle)) 3 ++
    makes 1 (.createJob {}) 13 ++ List.replicate 21 (.step 0)

theorem completion_reports_beside :
    ∃ (state : World 2) (value : Return), Reached sqlite LeftAlone state ∧
      (state.session 0).prog = .done value ∧ value.isOk = true ∧
      Reports firstHandle value (state.session 0).state := by
  have ran : (checkedTo sqlite leavesAlone completingBeside).isSome = true :=
    rfl
  have reached := reached_checkedTo leftAlone_of_check ran
  exact ⟨_, _, reached, rfl, rfl,
    completion_reports sqlite reached
      (show _ = some (.markJobSuccess 1 "done" none (some firstHandle))
        from rfl) rfl rfl⟩

/-- A worker looks its job up in order to complete it.  Before it opens its
second session, recovery fails the job and moves it to history. -/
def completedTooLate : List (Action Write Call 2) :=
  makes 0 (.createJob {}) 13 ++
    makes 0 (.claimJob ["default"] "worker") 12 ++
    makes 0 (.markJobSuccess 1 "done" none (some firstHandle)) 3 ++
    makes 1 (.failZombieJob 1 "dead") 19 ++ List.replicate 2 (.step 0)

/-- The rejected completion returns normally. -/
theorem completion_unreported :
    ∃ (state : World 2) (value : Return),
      Reached sqlite System.anyStep state ∧
      (state.session 0).call =
        some (.markJobSuccess 1 "done" none (some firstHandle)) ∧
      (state.session 0).prog = .done value ∧ value.isOk = true ∧
      (state.session 0).state.written = [] ∧
      ¬Reports firstHandle value (state.session 0).state := by
  have ran : (ranTo sqlite completedTooLate).isSome = true := rfl
  refine ⟨_, _, reached_ranTo ran, rfl, rfl, rfl, rfl, ?_⟩
  intro reports
  obtain ⟨write, member, _⟩ := reports.closed.mp rfl
  cases member

end Sqlery.Standalone
