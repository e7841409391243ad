import Sqlery.ReadCommitted.Answers
import Sqlery.ReadCommitted.Footprint
import Sqlery.Standalone.AsyncWorker
import Sqlery.Standalone.Sealing

/-!
# What a recheck writes

The transactions of `_recheck_blocked` and of `_arecheck_blocked` write entries,
and they move the rechecked job.  The synchronous move asks for an idle job and
deletes the live row only if it finds one; the asynchronous one takes the job
whose row it selected last.
-/

namespace Sqlery.Standalone

open ReadCommitted
open Setting (Yields Ends Lasts Minded Stable)
open Script

/-- The write is about the entry of a job. -/
def Write.isEntry : Write → Bool
  | .insertReady _ => true
  | .setReady _ => true
  | .deleteReady _ _ => true
  | .insertBlocked _ => true
  | .deleteBlocked _ _ => true
  | .foundReady _ _ => true
  | .foundBlocked _ _ => true
  | _ => false

/-- Nothing is written but entries. -/
def Entries (state : Loc) : Prop :=
  ∀ write ∈ state.pending, write.isEntry = true

/-- The transaction writes entries and moves jobs, and closes only what is open
of a job it moves. -/
structure Recheckings (state : Loc) : Prop where
  kinds : ∀ write ∈ state.pending, write.isEntry = true ∨
    (∃ row, write = .insertHistory row) ∨ (∃ job, write = .deleteLive job) ∨
      ∃ id job now outcome, write = .closeAttempt id job now outcome
  closes : ∀ id job now outcome,
    .closeAttempt id job now outcome ∈ state.pending →
    .deleteLive job ∈ state.pending

/-- What the transaction moves is idle. -/
def MovesIdle (cfg : Config) (db : Db) (state : Loc) : Prop :=
  ∀ job, .deleteLive job ∈ state.pending →
    Owns cfg.dialect state (.live job) ∧ db.hasOpenAttempt job = false

/-- A recheck that asks for no idle job has selected the row of this one, and
none since. -/
def Told (asks : Bool) (job : JobId) (state : Loc) : Prop :=
  asks = false → state.noted.getLast? = some (.remark (.rechecks job))

/-- A recheck that asks for an idle job, or one that does not. -/
structure Sparing (cfg : Config) (asks : Bool) (db : Db) (state : Loc) :
    Prop where
  writes : Recheckings state
  idle : asks = true → MovesIdle cfg db state
  told : ∀ job, .deleteLive job ∈ state.pending → Told asks job state

/-- The transaction rechecks the job, and has written no more than entries. -/
structure Entering (asks : Bool) (job : JobId) (state : Loc) : Prop where
  entries : Entries state
  told : Told asks job state

section Sparing

variable {cfg : Config} {asks : Bool} {db : Db} {state : Loc}

theorem recheckings_of_entries (entries : Entries state) :
    Recheckings state where
  kinds := fun write member => Or.inl (entries write member)
  closes := by
    intro id job now outcome member
    cases entries _ member

theorem Entries.sparing (entries : Entries state) :
    Sparing cfg asks db state where
  writes := recheckings_of_entries entries
  idle := by
    intro _ job member
    cases entries _ member
  told := by
    intro job member
    cases entries _ member

theorem entries_of_idle (idle : state.pending = []) : Entries state := by
  intro write member
  rw [idle] at member
  cases member

theorem entering_of_entries {job : JobId} (entries : Entries state) :
    Entering true job state :=
  ⟨entries, fun isAsked => by cases isAsked⟩

theorem Entries.extend {writes : List Write} {locks : List Lock}
    (entries : Entries state)
    (new : ∀ write ∈ writes, write.isEntry = true) :
    Entries (state.extend writes locks) := by
  intro write member
  rcases List.mem_append.mp member with earlier | now
  · exact entries write earlier
  · exact new write now

/-- The moved row is held, so nobody opens an attempt of its job. -/
theorem movesIdle_stable : (backend cfg).Stable (MovesIdle cfg) := by
  apply stable_of
  · intro db mine theirs other stage _ _ _ lawful _ apart idle job member
    obtain ⟨owned, isIdle⟩ := idle job member
    exact ⟨owned, idle_kept lawful apart owned isIdle⟩
  · intro db next mine same idle job member
    obtain ⟨owned, isIdle⟩ := idle job member
    refine ⟨owned, ?_⟩
    rw [Db.hasOpenAttempt, same.attempts]
    exact isIdle

theorem sparing_stable : (backend cfg).Stable (Sparing cfg asks) := by
  intro first second state env inv guarded sparing
  exact ⟨sparing.writes, fun isAsked =>
    movesIdle_stable first second state env inv guarded (sparing.idle isAsked),
    sparing.told⟩

/-- The other sessions may do what they do; a commit must be sparing. -/
def rechecking (cfg : Config) (asks : Bool) : Terms Db Write Lock where
  keeps := fun _ _ => True
  vow := Sparing cfg asks

theorem rechecking_chains : Setting.Chains (rechecking cfg asks) where
  refl := fun _ => trivial
  trans := fun _ _ _ _ _ => trivial

/-- Between transactions the script leaves nothing pending but entries, and it
commits sparing transactions only. -/
def Sparingly (cfg : Config) (asks : Bool) {α : Type} (script : Sql α) : Prop :=
  (backend cfg).Yields (rechecking cfg asks) (fun _ => Entries) script
    (fun _ _ => Entries) fun _ _ => Entries

end Sparing

/-! ## Scripts that write entries -/

/-- Whatever the script reads, it writes entries and leaves no remark. -/
structure Enters {α : Type} (script : Sql α) : Prop where
  emits : script.Emits (fun _ => True) (fun write => write.isEntry = true)
    fun _ => False
  silent : Silent script

namespace Enters

variable {α β : Type}

theorem pure (value : α) : Enters (Pure.pure value : Sql α) :=
  ⟨.pure value, trivial⟩

theorem read (query : Db → α) : Enters (Script.read query : Sql α) :=
  ⟨.read query, .read query⟩

theorem commit : Enters (Script.commit : Sql Unit) := ⟨.commit, trivial⟩

theorem diverge : Enters (Script.diverge : Sql α) := ⟨.diverge, trivial⟩

theorem exec {statement : Stmt α}
    (writes : ∀ snapshot current others effect,
      statement snapshot current others = some effect →
      (∀ write ∈ effect.writes, write.isEntry = true) ∧
        ∀ write ∈ effect.atOnce, False) :
    Enters (Script.exec statement) :=
  ⟨.exec fun snapshot current others effect _ _ ran =>
    writes snapshot current others effect ran, fun _ => trivial⟩

theorem bind {first : Sql β} {next : β → Sql α} (begins : Enters first)
    (rest : ∀ value, Enters (next value)) : Enters (first >>= next) :=
  ⟨.bind begins.emits fun value => (rest value).emits,
    .bind begins.silent fun value => (rest value).silent⟩

theorem session {body : Sql α} (inner : Enters body) :
    Enters (Script.session body) :=
  ⟨.session inner.emits, .session inner.silent⟩

end Enters

section Enters

variable {cfg : Config} {asks : Bool} {α : Type}

theorem minded_entries :
    Minded (C := backend cfg) (rechecking cfg asks)
      (fun write => write.isEntry = true) (fun remarks => remarks = [])
      Entries where
  note := fun _ _ _ entries => entries
  extend := fun _ _ _ new entries => entries.extend new
  committed := fun _ _ => entries_of_idle rfl
  rolledBack := fun _ _ => entries_of_idle rfl
  vow := fun _ _ _ entries => entries.sparing

theorem minded_entering {job : JobId} :
    Minded (C := backend cfg) (rechecking cfg asks)
      (fun write => write.isEntry = true) (fun remarks => remarks = [])
      (Entering asks job) where
  note := by
    rintro state remarks rfl entering
    have same : state.note [] = state := by simp [Local.note]
    rw [same]
    exact entering
  extend := fun _ _ _ new entering =>
    ⟨entering.entries.extend new, entering.told⟩
  committed := fun _ entering => ⟨entries_of_idle rfl, entering.told⟩
  rolledBack := fun _ entering => ⟨entries_of_idle rfl, entering.told⟩
  vow := fun _ _ _ entering => entering.entries.sparing

theorem Enters.spares {script : Sql α} (enters : Enters script) :
    Sparingly cfg asks script :=
  Yields.of_emits minded_entries enters.emits enters.silent

theorem enters_dml {K V : Type} [DecidableEq K] {key : V → K}
    {table : Db → Table key} {admits : Db → V → Bool} {write : V → Write}
    (isEntry : ∀ row, (write row).isEntry = true) :
    Enters (exec (dml table cfg admits write)) := by
  apply Enters.exec
  intro snapshot current others effect ran
  cases ran
  constructor
  · intro emitted member
    obtain ⟨row, _, rfl⟩ := List.mem_map.mp member
    exact isEntry row
  · intro emitted member
    cases member

theorem deleteReadyWhere_enters {admits : Ready → Bool} :
    Enters (deleteReadyWhere cfg admits) :=
  .bind (enters_dml fun _ => rfl) fun _ => .pure _

theorem deleteBlockedStmt_enters {jobs : List JobId} :
    Enters (deleteBlockedStmt cfg jobs) :=
  .bind (enters_dml fun _ => rfl) fun _ => .pure _

theorem writeReady_enters {jobs : List Job} {fresh : Bool} :
    Enters (writeReady cfg jobs fresh) := by
  apply Enters.bind
  · unfold runningAmong
    split
    · exact .pure _
    · exact .read _
  · intro running
    dsimp only
    split
    · exact .pure _
    · apply Enters.bind
      · unfold writerSlot
        split
        · exact .read _
        · exact .pure _
      · intro slot
        apply Enters.exec
        intro snapshot current others effect ran
        simp only [insertUnlessFound] at ran
        split at ran
        · cases ran
        · cases ran
          constructor
          · intro emitted member
            obtain ⟨row, _, rfl⟩ := List.mem_map.mp member
            split <;> rfl
          · intro emitted member
            cases member

theorem newestRetry_enters {latest : JobId → Sql (Option Job)}
    (reads : ∀ job, Enters (latest job)) (hops : Nat) (dep : Job) :
    Enters (newestRetry latest hops dep) := by
  induction hops generalizing dep with
  | zero => exact .pure _
  | succ hops ih =>
      simp only [newestRetry]
      split
      · apply Enters.bind (reads _)
        intro found
        cases found with
        | none => exact .pure _
        | some child => exact ih child
      · exact .pure _

theorem judgeDependencies_enters {deps : List JobId}
    {fetch : JobId → Option Job} {latest : JobId → Sql (Option Job)}
    (reads : ∀ job, Enters (latest job)) :
    Enters (judgeDependencies deps fetch latest) := by
  suffices ∀ failed pending,
      Enters (judgeFrom fetch latest deps failed pending) from this [] false
  induction deps with
  | nil => exact fun failed pending => .pure _
  | cons dep rest ih =>
      intro failed pending
      simp only [judgeFrom]
      split
      · exact ih _ _
      · apply Enters.bind (newestRetry_enters reads _ _)
        intro newest
        split
        · exact ih _ _
        · split
          · exact ih _ _
          · exact ih _ _

theorem judge_enters {deps : List JobId} : Enters (judge deps) :=
  .bind (.read _) fun _ => judgeDependencies_enters fun _ => .read _

theorem fetchLevel_enters (deps : List Job)
    (known : List (JobId × Option Job)) (next : List Job) :
    Enters (fetchLevel deps known next) := by
  induction deps generalizing known next with
  | nil => exact .pure _
  | cons dep rest ih => exact .bind (.read _) fun _ => ih _ _

theorem fetchRetries_enters (hops : Nat) (frontier : List Job)
    (known : List (JobId × Option Job)) :
    Enters (fetchRetries hops frontier known) := by
  induction hops generalizing frontier known with
  | zero => exact .pure _
  | succ hops ih =>
      simp only [fetchRetries]
      split
      · exact .pure _
      · exact .bind (fetchLevel_enters _ _ _) fun _ => ih _ _

theorem ajudge_enters {deps : List JobId} : Enters (ajudge deps) :=
  .bind (.read _) fun _ => .bind (fetchRetries_enters _ _ _) fun _ =>
    judgeDependencies_enters fun _ => .pure _

theorem ifWaiting_enters {found : Option Job} : Enters (ifWaiting found) := by
  cases found with
  | none => exact .pure _
  | some job =>
      simp only [ifWaiting]
      split
      · exact .pure _
      · exact .bind (.read _) fun _ => .pure _

theorem ancestorIds_enters (hops : Nat) (ids : List JobId)
    (parent : Option JobId) : Enters (ancestorIds hops ids parent) := by
  induction hops generalizing ids parent with
  | zero => exact .pure _
  | succ hops ih =>
      cases parent with
      | none => exact .pure _
      | some job =>
          simp only [ancestorIds]
          split
          · exact .pure _
          · exact .bind (.read _) fun next => ih _ next

theorem dependentsOf_enters {job : JobId} {parent : Option JobId} :
    Enters (dependentsOf job parent) :=
  .session (.bind (ancestorIds_enters _ _ _) fun _ => .read _)

theorem adependentsOf_enters {job : JobId} {parent : Option JobId} :
    Enters (adependentsOf job parent) := by
  apply Enters.session
  apply Enters.bind
  · cases parent with
    | none => exact .read _
    | some parent => exact .pure _
  · exact fun parent => .bind (ancestorIds_enters _ _ _) fun _ => .read _

end Enters

/-! ## The move -/

section Move

variable {cfg : Config} {asks : Bool}

/-- What an exception leaves is rolled back. -/
def Anything : Exc → Db → Loc → Prop := fun _ _ _ => True

theorem lasts_anything (exception : Exc) :
    (backend cfg).Lasts (rechecking cfg asks) (Anything exception) :=
  Lasts.local

theorem Sparingly.inner {α : Type} {script : Sql α}
    (spares : Sparingly cfg asks script) :
    (backend cfg).Yields (rechecking cfg asks) (fun _ => Entries) script
      (fun _ _ => Entries) Anything :=
  Yields.strengthen spares (fun _ _ _ _ holds => holds)
    fun _ _ _ _ _ => trivial

/-- A part of a recheck that writes entries. -/
theorem Enters.entering {α : Type} {script : Sql α} {job : JobId}
    (enters : Enters script) :
    (backend cfg).Yields (rechecking cfg asks) (fun _ => Entering asks job)
      script (fun _ _ => Entering asks job) Anything :=
  Yields.strengthen
    (Yields.of_emits minded_entering enters.emits enters.silent)
    (fun _ _ _ _ holds => holds) fun _ _ _ _ _ => trivial

/-- The transaction holds the live row and has written no more than entries
and its copy in history. -/
structure Copied (cfg : Config) (asks : Bool) (job : JobId) (state : Loc) :
    Prop where
  kinds : ∀ write ∈ state.pending,
    write.isEntry = true ∨ ∃ row, write = .insertHistory row
  owned : Owns cfg.dialect state (.live job)
  told : Told asks job state

/-- The live row is deleted if the statement has found one. -/
structure Taken (cfg : Config) (asks : Bool) (job : JobId) (count : Nat)
    (db : Db) (state : Loc) : Prop where
  sparing : Sparing cfg asks db state
  deletes : count = 1 → .deleteLive job ∈ state.pending

theorem taken_stable {job : JobId} {count : Nat} :
    (backend cfg).Stable (Taken cfg asks job count) := by
  intro first second state env inv guarded taken
  exact ⟨sparing_stable first second state env inv guarded taken.sparing,
    taken.deletes⟩

theorem lockForMove_sparingly {fence : MoveFence} :
    (backend cfg).Yields (rechecking cfg asks)
      (fun _ => Entering asks fence.jobId) (lockForMove cfg fence)
      (fun rows _ state => Entering asks fence.jobId state ∧ (rows ≠ [] →
        ∀ lock ∈ moveLock cfg fence.jobId, lock ∈ state.held)) Anything := by
  unfold lockForMove
  split
  · rename_i isDialect
    apply Yields.exec Lasts.local fun _ => Lasts.local
    intro snapshot current state others effect _ _ _ _ _ entering ran
    cases ran
    refine ⟨⟨entering.entries.extend (by simp), entering.told⟩,
      fun found => ?_⟩
    obtain ⟨row, isRow⟩ := List.exists_mem_of_ne_nil _ found
    have isJob := admits_id (mem_targets_iff.mp isRow).2.1
    intro lock member
    simp only [moveLock, isDialect, List.mem_singleton] at member
    rw [member, ← isJob]
    apply List.mem_append_right
    exact List.mem_append_left _ (List.mem_map.mpr ⟨row, isRow, rfl⟩)
  · rename_i isDialect
    apply Yields.read Lasts.local fun _ => Lasts.local
    intro db state _ _ entering
    refine ⟨entering, fun _ lock member => ?_⟩
    simp [moveLock, isDialect] at member

theorem insertHistory_sparingly {fence : MoveFence} {status : Status}
    {values : Values} {now : Time} :
    (backend cfg).Yields (rechecking cfg asks)
      (fun _ state => Entering asks fence.jobId state ∧
        ∀ lock ∈ moveLock cfg fence.jobId, lock ∈ state.held)
      (insertHistory cfg fence status values now)
      (fun _ _ => Copied cfg asks fence.jobId) Anything := by
  apply Yields.exec Lasts.local fun _ => Lasts.local
  intro snapshot current state others effect _ _ _ _ _ holds ran
  cases ran
  refine ⟨?_, ?_, holds.1.told⟩
  · intro write member
    rcases List.mem_append.mp member with earlier | new
    · exact Or.inl (holds.1.entries write earlier)
    · obtain ⟨row, _, isInsert⟩ := List.mem_map.mp new
      exact Or.inr ⟨row, isInsert.symm⟩
  · cases isDialect : cfg.dialect with
    | postgresql =>
        have owned := owns_of_moveLock isDialect holds.2
        rw [isDialect] at owned
        exact List.mem_append_left _ owned
    | sqlite =>
        apply List.mem_append_right
        apply List.mem_append_left
        simp [writerLock, lockOf]

/-- An attempt the transaction has not closed is in its own view of the data. -/
theorem Copied.runs_view {job : JobId} {db : Db} {state : Loc}
    (copied : Copied cfg asks job state) {attempt : Attempt}
    (stored : attempt ∈ db.attempts.rows) :
    attempt ∈ (after state.pending db).attempts.rows := by
  apply Table.mem_of_get
  apply attempts_after_kept (Table.get_of_mem stored)
  intro write member isClose
  obtain ⟨owner, now, outcome, rfl⟩ := isClose
  rcases copied.kinds _ member with isEntry | ⟨row, isInsert⟩
  · cases isEntry
  · cases isInsert

/-- The row that the `DELETE` of a fence with `require_idle` finds is idle, at
the moment of its snapshot and, as the row is held, when it is written. -/
theorem idle_of_target {fence : MoveFence} {snapshot current : Db}
    {state : Loc} (isFenced : fence.requireIdle = true)
    (copied : Copied cfg asks fence.jobId state)
    (env : (backend cfg).Env state.held snapshot current)
    (inv : Inv snapshot) (guarded : Guarded (schema cfg.dialect) state)
    {row : Job}
    (admitted : fence.admits (basis cfg.dialect (after state.pending snapshot)
      (after state.pending current)) row = true) :
    current.hasOpenAttempt fence.jobId = false := by
  have isJob := admits_id admitted
  simp only [MoveFence.admits, isFenced, Bool.not_true, Bool.false_or,
    Bool.and_eq_true, Bool.not_eq_true'] at admitted
  have idle := hasOpenAttempt_eq_false.mp admitted.1.1.1.2
  apply hasOpenAttempt_eq_false.mpr
  intro attempt stored isOpen isOwn
  have runs : attempt.runs fence.jobId = true := runs_iff.mpr ⟨isOwn, isOpen⟩
  have before := runs_before env inv guarded copied.owned stored runs
  apply idle attempt ?_ isOpen (isOwn.trans isJob.symm)
  cases isDialect : cfg.dialect with
  | postgresql => exact copied.runs_view before
  | sqlite => exact copied.runs_view stored

theorem deleteLive_sparingly {fence : MoveFence}
    (asked : asks = true → fence.requireIdle = true) :
    (backend cfg).Yields (rechecking cfg asks)
      (fun _ => Copied cfg asks fence.jobId) (deleteLive cfg fence)
      (fun count => Taken cfg asks fence.jobId count) Anything := by
  have deletes : (backend cfg).Yields (rechecking cfg asks)
      (fun _ => Copied cfg asks fence.jobId)
      (exec (dml Db.live cfg fence.admits fun row => .deleteLive row.id))
      (fun rows => Taken cfg asks fence.jobId rows.length) Anything := by
    apply Yields.exec Lasts.local fun _ => Stable.lasts taken_stable
    intro snapshot current state others effect good _ guarded mild _ copied ran
    cases ran
    refine ⟨⟨⟨?_, ?_⟩, ?_, ?_⟩, ?_⟩
    · intro write member
      rcases List.mem_append.mp member with earlier | new
      · exact (copied.kinds write earlier).imp id Or.inl
      · obtain ⟨row, _, isDelete⟩ := List.mem_map.mp new
        exact Or.inr (Or.inr (Or.inl ⟨row.id, isDelete.symm⟩))
    · intro id job now outcome member
      rcases List.mem_append.mp member with earlier | new
      · rcases copied.kinds _ earlier with isEntry | ⟨row, isInsert⟩
        · cases isEntry
        · cases isInsert
      · obtain ⟨row, _, isDelete⟩ := List.mem_map.mp new
        cases isDelete
    · intro isAsked job member
      rcases List.mem_append.mp member with earlier | new
      · rcases copied.kinds _ earlier with isEntry | ⟨row, isInsert⟩
        · cases isEntry
        · cases isInsert
      · obtain ⟨row, isRow, isDelete⟩ := List.mem_map.mp new
        cases isDelete
        have admitted := (mem_targets_iff.mp isRow).2.1
        rw [admits_id admitted]
        exact ⟨List.mem_append_left _ copied.owned, idle_of_target
          (asked isAsked) copied mild.env good.inv guarded admitted⟩
    · intro job member
      rcases List.mem_append.mp member with earlier | new
      · rcases copied.kinds _ earlier with isEntry | ⟨row, isInsert⟩
        · cases isEntry
        · cases isInsert
      · obtain ⟨row, isRow, isDelete⟩ := List.mem_map.mp new
        cases isDelete
        rw [admits_id (mem_targets_iff.mp isRow).2.1]
        exact copied.told
    · intro single
      obtain ⟨row, isRow⟩ := List.exists_mem_of_length_pos
        (lt_of_lt_of_eq Nat.one_pos single.symm)
      apply List.mem_append_right
      refine List.mem_map.mpr ⟨row, isRow, ?_⟩
      rw [admits_id (mem_targets_iff.mp isRow).2.1]
  apply Yields.bind rechecking_chains lasts_anything deletes
  intro rows
  exact Yields.pure (Stable.lasts taken_stable) fun _ _ _ _ holds => holds

/-- What is closed afterwards is the moved job's. -/
theorem closeStragglers_sparingly {job : JobId} {status : Status} {now : Time} :
    (backend cfg).Yields (rechecking cfg asks) (Taken cfg asks job 1)
      (closeStragglersStmt cfg job status now)
      (fun _ => Sparing cfg asks) Anything := by
  have closing : (backend cfg).Yields (rechecking cfg asks)
    (Taken cfg asks job 1)
      (exec (dml Db.attempts cfg
        (fun _ attempt => decide (attempt.jobId = job) && attempt.isOpen)
        fun attempt => .closeAttempt attempt.id attempt.jobId now
          (if status = .success then .success else .abandoned)))
      (fun _ => Sparing cfg asks) Anything := by
    apply Yields.exec (Stable.lasts taken_stable)
      fun _ => Stable.lasts sparing_stable
    intro snapshot current state others effect _ _ _ _ _ taken ran
    cases ran
    have deleted := taken.deletes rfl
    refine ⟨⟨?_, ?_⟩, ?_, ?_⟩
    · intro write member
      rcases List.mem_append.mp member with earlier | new
      · exact taken.sparing.writes.kinds write earlier
      · obtain ⟨attempt, _, isClose⟩ := List.mem_map.mp new
        exact Or.inr (Or.inr (Or.inr ⟨_, _, _, _, isClose.symm⟩))
    · intro id owner time outcome member
      apply List.mem_append_left
      rcases List.mem_append.mp member with earlier | new
      · exact taken.sparing.writes.closes id owner time outcome earlier
      · obtain ⟨attempt, isAttempt, isClose⟩ := List.mem_map.mp new
        cases isClose
        have admitted := (mem_targets_iff.mp isAttempt).2.1
        simp only [Bool.and_eq_true, decide_eq_true_eq] at admitted
        rw [admitted.1]
        exact deleted
    · intro isAsked moved member
      rcases List.mem_append.mp member with earlier | new
      · obtain ⟨owned, idle⟩ := taken.sparing.idle isAsked moved earlier
        exact ⟨List.mem_append_left _ owned, idle⟩
      · obtain ⟨attempt, _, isClose⟩ := List.mem_map.mp new
        cases isClose
    · intro moved member
      rcases List.mem_append.mp member with earlier | new
      · exact taken.sparing.told moved earlier
      · obtain ⟨attempt, _, isClose⟩ := List.mem_map.mp new
        cases isClose
  apply Yields.bind rechecking_chains lasts_anything closing
  intro rows
  exact Yields.pure (Stable.lasts sparing_stable) fun _ _ _ _ holds => holds

theorem finishIn_sparingly {fence : MoveFence} {status : Status}
    {values : Values} (asked : asks = true → fence.requireIdle = true) :
    (backend cfg).Yields (rechecking cfg asks)
      (fun _ => Entering asks fence.jobId)
      (finishIn cfg fence status values) (fun _ => Sparing cfg asks)
      Anything := by
  apply Yields.bind rechecking_chains lasts_anything
    (Enters.entering (.read _))
  intro now
  apply Yields.bind rechecking_chains lasts_anything lockForMove_sparingly
  intro locked
  split
  · exact Yields.pure Lasts.local fun _ _ _ _ holds => holds.1.entries.sparing
  · rename_i found
    refine Yields.weaken (Yields.bind rechecking_chains lasts_anything
      insertHistory_sparingly fun inserted => ?_)
      fun db state _ holds => ⟨holds.1, holds.2 found⟩
    apply Yields.bind rechecking_chains lasts_anything
      (deleteLive_sparingly asked)
    intro deleted
    split
    · rename_i both
      have single : deleted = 1 := by
        simp only [Bool.and_eq_true, decide_eq_true_eq] at both
        exact both.2
      subst single
      have tells : (backend cfg).Yields (rechecking cfg asks)
          (Taken cfg asks fence.jobId 1) (currentTime : Sql Time)
          (fun _ => Taken cfg asks fence.jobId 1) Anything :=
        Yields.read (Stable.lasts taken_stable)
          (fun _ => Stable.lasts taken_stable) fun _ _ _ _ holds => holds
      apply Yields.bind rechecking_chains lasts_anything tells
      intro later
      apply Yields.bind rechecking_chains lasts_anything
        closeStragglers_sparingly
      intro closed
      exact Yields.pure (Stable.lasts sparing_stable)
        fun _ _ _ _ holds => holds
    · exact Yields.raise (Stable.lasts taken_stable) fun _ _ _ _ => trivial

theorem failQueued_sparingly {job : Job} {error reason : String} {now : Time} :
    (backend cfg).Yields (rechecking cfg true) (fun _ => Entries)
      (failQueued cfg job error reason now) (fun _ => Sparing cfg true)
      Anything := by
  apply Yields.bind rechecking_chains lasts_anything
    (Sparingly.inner (Enters.spares deleteReadyWhere_enters))
  intro _
  apply Yields.bind rechecking_chains lasts_anything
    (Sparingly.inner (Enters.spares deleteBlockedStmt_enters))
  intro _
  refine Yields.weaken (finishIn_sparingly ?_) fun _ _ _ entries =>
    entering_of_entries entries
  exact fun _ => rfl

theorem commit_sparingly :
    (backend cfg).Yields (rechecking cfg asks) (Sparing cfg asks)
      (commit : Sql Unit) (fun _ _ => Entries) Anything := by
  apply Yields.commit (Stable.lasts sparing_stable) Lasts.local
  intro db state _ _ holds
  exact ⟨holds, fun _ => entries_of_idle rfl⟩

end Move

/-! ## The rechecks -/

section Rechecks

variable {cfg : Config} {asks : Bool}

theorem Sparingly.bind {α β : Type} {first : Sql β} {next : β → Sql α}
    (begins : Sparingly cfg asks first)
    (rest : ∀ value, Sparingly cfg asks (next value)) :
    Sparingly cfg asks (first >>= next) :=
  Yields.bind rechecking_chains (fun _ => Lasts.local) begins rest

theorem Sparingly.session {α : Type} {body : Sql α}
    (begins : (backend cfg).Yields (rechecking cfg asks) (fun _ => Entries) body
      (fun _ _ => Entries) Anything) :
        Sparingly cfg asks (Script.session body) :=
  Yields.session rechecking_chains begins (fun _ => Lasts.local) lasts_anything
    (fun _ => Lasts.local) (fun _ => Lasts.local)
    (fun _ _ _ _ _ => entries_of_idle rfl)
    fun _ _ _ _ _ => entries_of_idle rfl

/-- What follows the move and its commit. -/
theorem committed_sparingly {α β : Type} {move : Sql β} {result : α}
    {pre : Db → Loc → Prop}
    (moves : (backend cfg).Yields (rechecking cfg asks) pre move
      (fun _ => Sparing cfg asks) Anything) :
    (backend cfg).Yields (rechecking cfg asks) pre
      (move >>= fun _ => commit >>= fun _ => pure result)
      (fun _ _ => Entries) Anything := by
  apply Yields.bind rechecking_chains lasts_anything moves
  intro _
  apply Yields.bind rechecking_chains lasts_anything commit_sparingly
  intro _
  exact Sparingly.inner (Enters.spares (.pure _))

/-- `_recheck_blocked` moves idle jobs only. -/
theorem recheckBlocked_sparingly {job : JobId} {createdAt : Time} :
    Sparingly cfg true (recheckBlocked cfg job createdAt) := by
  apply Sparingly.session
  apply Yields.bind rechecking_chains lasts_anything
    (Sparingly.inner (Enters.spares (.read _)))
  intro found
  apply Yields.bind rechecking_chains lasts_anything
    (Sparingly.inner (Enters.spares ifWaiting_enters))
  intro waiting
  cases waiting with
  | none =>
      exact Sparingly.inner (Enters.spares (.bind deleteBlockedStmt_enters
        fun _ => .bind .commit fun _ => .pure _))
  | some row =>
      apply Yields.bind rechecking_chains lasts_anything
        (Sparingly.inner (Enters.spares judge_enters))
      intro verdict
      split
      · exact Sparingly.inner (Enters.spares (.bind .commit fun _ => .pure _))
      · apply Yields.bind rechecking_chains lasts_anything
          (Sparingly.inner (Enters.spares (.read _)))
        intro now
        exact committed_sparingly failQueued_sparingly
      · exact Sparingly.inner (Enters.spares (.bind deleteBlockedStmt_enters
          fun _ => .bind writeReady_enters fun _ =>
            .bind .commit fun _ => .pure _))

/-- Once the row of the job is selected, its recheck is under way. -/
theorem selectBlocked_sparingly {job : JobId} {createdAt : Time} :
    (backend cfg).Yields (rechecking cfg asks) (fun _ => Entries)
      (selectBlocked job createdAt)
      (fun found _ state => Entries state ∧
        (found.isSome = true → Told asks job state)) Anything := by
  apply Yields.observe Lasts.local fun _ => Lasts.local
  intro db state _ _ entries
  refine ⟨entries, fun isSome _ => ?_⟩
  simp only [Local.note, isSome, if_true]
  exact List.getLast?_concat

/-- A part of an asynchronous recheck after which its transaction ends. -/
theorem Enters.ends {α : Type} {script : Sql α} {job : JobId}
    (enters : Enters script) :
    (backend cfg).Yields (rechecking cfg asks) (fun _ => Entering asks job)
      script (fun _ _ => Entries) Anything :=
  Yields.strengthen enters.entering
    (fun _ _ _ _ entering => entering.entries) fun _ _ _ _ _ => trivial

/-- `_arecheck_blocked` moves the job whatever its attempts are. -/
theorem arecheckBlocked_sparingly {job : JobId} {createdAt : Time} :
    Sparingly cfg false (arecheckBlocked cfg job createdAt) := by
  apply Sparingly.session
  apply Yields.bind rechecking_chains lasts_anything selectBlocked_sparingly
  intro found
  cases found with
  | none =>
      have leaves : Sparingly cfg false
          (do
            let _ ← deleteBlockedStmt cfg [job]
            commit
            pure Recheck.gone) :=
        Enters.spares (.bind deleteBlockedStmt_enters
          fun _ => .bind .commit fun _ => .pure _)
      exact Yields.weaken leaves.inner fun _ _ _ holds => holds.1
  | some row =>
      refine Yields.weaken ?_ fun _ _ _ holds =>
        Entering.mk holds.1 (holds.2 rfl)
      apply Yields.bind rechecking_chains lasts_anything
        (Enters.entering ajudge_enters)
      intro verdict
      split
      · exact Enters.ends (.bind .commit fun _ => .pure _)
      · apply Yields.bind rechecking_chains lasts_anything
          (Enters.entering deleteReadyWhere_enters)
        intro _
        apply Yields.bind rechecking_chains lasts_anything
          (Enters.entering deleteBlockedStmt_enters)
        intro _
        apply Yields.bind rechecking_chains lasts_anything
          (Enters.entering (.read _))
        intro now
        apply committed_sparingly
        refine Yields.weaken (finishIn_sparingly ?_) fun _ _ _ holds => holds
        intro isAsked
        cases isAsked
      · exact Enters.ends (.bind deleteBlockedStmt_enters
          fun _ => .bind writeReady_enters fun _ =>
            .bind .commit fun _ => .pure _)

theorem releaseDependents_sparingly {job : JobId} {parent : Option JobId} :
    Sparingly cfg true (releaseDependents cfg job parent) := by
  have round : ∀ dependents released work,
      Sparingly cfg true (recheckAll cfg dependents released work) := by
    intro dependents
    induction dependents with
    | nil => exact fun _ _ => Enters.spares (.pure _)
    | cons dependent rest ih =>
        intro released work
        apply Sparingly.bind recheckBlocked_sparingly
        intro outcome
        cases outcome <;> exact ih _ _
  suffices ∀ fuel work seen released,
      Sparingly cfg true
        (releaseLoop cfg fuel work seen released) from this _ _ _ _
  intro fuel
  induction fuel with
  | zero => exact fun _ _ _ => Enters.spares .diverge
  | succ fuel ih =>
      intro work seen released
      simp only [releaseLoop]
      split
      · exact Enters.spares (.pure _)
      · split
        · exact ih _ _ _
        · exact Sparingly.bind (Enters.spares dependentsOf_enters) fun _ =>
            Sparingly.bind (round _ _ _) fun _ => ih _ _ _

theorem areleaseDependents_sparingly {job : JobId} {parent : Option JobId} :
    Sparingly cfg false (areleaseDependents cfg job parent) := by
  have round : ∀ dependents released work,
      Sparingly cfg false (arecheckAll cfg dependents released work) := by
    intro dependents
    induction dependents with
    | nil => exact fun _ _ => Enters.spares (.pure _)
    | cons dependent rest ih =>
        intro released work
        apply Sparingly.bind arecheckBlocked_sparingly
        intro outcome
        cases outcome <;> exact ih _ _
  suffices ∀ fuel work seen released,
      Sparingly cfg false (areleaseLoop cfg fuel work seen released) from
    this _ _ _ _
  intro fuel
  induction fuel with
  | zero => exact fun _ _ _ => Enters.spares .diverge
  | succ fuel ih =>
      intro work seen released
      simp only [areleaseLoop]
      split
      · exact Enters.spares (.pure _)
      · split
        · exact ih _ _ _
        · exact Sparingly.bind (Enters.spares adependentsOf_enters) fun _ =>
            Sparingly.bind (round _ _ _) fun _ => ih _ _ _

end Rechecks

end Sqlery.Standalone
