import Sqlery.ReadCommitted.Watch
import Sqlery.Standalone.Rely
import Sqlery.Standalone.Moving
import Sqlery.Standalone.Worker

/-!
# A move closes what is open

A transaction that takes a row out of the live table by a move also closes
every attempt of the job that is open.  The promise of the backend does not
say so.  It is shown here of the statements and the transitions, one by one:
what is asked of a transaction before it commits is that it is sealed.
-/

namespace Sqlery.Standalone

open ReadCommitted
open Setting (Yields Lasts Stable.lasts stable_and)
open Script

/-! ## Sealed transactions -/

/-- A job the transaction has moved is left without an open attempt, unless the
transaction has given the id away again. -/
inductive Cleared (cfg : Config) (db : Db) (state : Loc) (job : JobId) :
    Prop where
  | renewed (row : Job) : .insertLive row ∈ state.pending → row.id = job →
      Cleared cfg db state job
  | closed : Owns cfg.dialect state (.live job) →
      (∀ attempt ∈ db.attempts.rows, attempt.runs job = true →
        attempt.id ∈ state.pending.filterMap closedId) →
      (∀ attempt, .insertAttempt attempt ∈ state.pending →
        attempt.jobId ≠ job) → Cleared cfg db state job

/-- Every job the transaction has moved is cleared. -/
def Sealed (cfg : Config) (db : Db) (state : Loc) : Prop :=
  ∀ job, .deleteLive job ∈ state.pending → Cleared cfg db state job

/-- The transaction is sealed and has opened no attempt. -/
structure Shut (cfg : Config) (db : Db) (state : Loc) : Prop where
  unopened : ∀ attempt, .insertAttempt attempt ∉ state.pending
  isSealed : Sealed cfg db state

/-- The transaction holds the row of the job, and the other jobs it has moved
are cleared. -/
structure Emptying (cfg : Config) (job : JobId) (db : Db) (state : Loc) :
    Prop where
  unopened : ∀ attempt, .insertAttempt attempt ∉ state.pending
  owns : Owns cfg.dialect state (.live job)
  others : ∀ other, .deleteLive other ∈ state.pending → other ≠ job →
    Cleared cfg db state other

section Sealed

variable {cfg : Config} {db : Db} {state : Loc}

/-- A job whose row is held gets no new attempt. -/
theorem runs_of_kept {other : Call} {stage : Stage} {mine theirs : Loc}
    {job : JobId} {attempt : Attempt}
    (lawful : Lawful cfg.dialect other stage db theirs)
    (apart : Apart (schema cfg.dialect) mine.held theirs.held)
    (owned : Owns cfg.dialect mine (.live job))
    (member : attempt ∈ (after theirs.pending db).attempts.rows)
    (runs : attempt.runs job = true) : attempt ∈ db.attempts.rows := by
  obtain ⟨isJob, isOpen⟩ := runs_iff.mp runs
  rcases open_after_cases member isOpen with old | new
  · exact old
  · have held := (lawful.opened attempt new).1
    rw [isJob] at held
    exact (notOwned apart owned held).elim

theorem Cleared.kept {other : Call} {stage : Stage} {mine theirs : Loc}
    {job : JobId} (cleared : Cleared cfg db mine job)
    (lawful : Lawful cfg.dialect other stage db theirs)
    (apart : Apart (schema cfg.dialect) mine.held theirs.held) :
    Cleared cfg (after theirs.pending db) mine job := by
  cases cleared with
  | renewed row member same => exact .renewed row member same
  | closed owned closes unopened =>
      refine .closed owned (fun attempt member runs => ?_) unopened
      exact closes attempt (runs_of_kept lawful apart owned member runs) runs

theorem Cleared.sameAttempts {next : Db} {job : JobId}
    (same : next.attempts = db.attempts) (cleared : Cleared cfg db state job) :
    Cleared cfg next state job := by
  cases cleared with
  | renewed row member isJob => exact .renewed row member isJob
  | closed owned closes unopened =>
      refine .closed owned ?_ unopened
      rw [same]
      exact closes

theorem sealed_stable : (backend cfg).Stable (Sealed cfg) := by
  apply stable_of
  · intro db mine theirs other stage _ _ _ lawful _ apart isSealed job member
    exact (isSealed job member).kept lawful apart
  · intro db next mine same isSealed job member
    exact (isSealed job member).sameAttempts same.attempts

theorem shut_stable : (backend cfg).Stable (Shut cfg) := by
  intro first second state env inv guarded shut
  exact ⟨shut.unopened,
    sealed_stable first second state env inv guarded shut.isSealed⟩

theorem emptying_stable (job : JobId) :
    (backend cfg).Stable (Emptying cfg job) := by
  apply stable_of
  · intro db mine theirs other stage _ _ _ lawful _ apart holds
    refine ⟨holds.unopened, holds.owns, fun moved member different => ?_⟩
    exact (holds.others moved member different).kept lawful apart
  · intro db next mine same holds
    refine ⟨holds.unopened, holds.owns, fun moved member different => ?_⟩
    exact (holds.others moved member different).sameAttempts same.attempts

/-- The write neither moves a job nor opens an attempt. -/
def Write.isLight : Write → Bool
  | .deleteLive _ => false
  | .insertAttempt _ => false
  | _ => true

theorem Cleared.extend {writes : List Write} {locks : List Lock} {job : JobId}
    (opensNone : ∀ attempt, .insertAttempt attempt ∉ writes)
    (cleared : Cleared cfg db state job) :
    Cleared cfg db (state.extend writes locks) job := by
  cases cleared with
  | renewed row member same =>
      exact .renewed row (List.mem_append_left _ member) same
  | closed owned closes unopened =>
      refine .closed (List.mem_append_left _ owned) ?_ ?_
      · intro attempt member runs
        have earlier := closes attempt member runs
        simp only [Local.extend, List.filterMap_append, List.mem_append]
        exact Or.inl earlier
      · intro attempt member
        rcases List.mem_append.mp member with old | new
        · exact unopened attempt old
        · exact (opensNone attempt new).elim

theorem not_opens {writes : List Write}
    (light : ∀ write ∈ writes, write.isLight = true) (attempt : Attempt) :
    .insertAttempt attempt ∉ writes := by
  intro member
  cases light _ member

theorem Shut.extend {writes : List Write} {locks : List Lock}
    (light : ∀ write ∈ writes, write.isLight = true)
    (shut : Shut cfg db state) : Shut cfg db (state.extend writes locks) := by
  constructor
  · intro attempt member
    rcases List.mem_append.mp member with old | new
    · exact shut.unopened attempt old
    · exact not_opens light attempt new
  · intro job member
    rcases List.mem_append.mp member with old | new
    · exact (shut.isSealed job old).extend (not_opens light)
    · cases light _ new

theorem Cleared.note {remarks : List Write} {job : JobId}
    (cleared : Cleared cfg db state job) :
    Cleared cfg db (state.note remarks) job := by
  cases cleared with
  | renewed row member same => exact .renewed row member same
  | closed owned closes unopened => exact .closed owned closes unopened

theorem Shut.note (remarks : List Write) (shut : Shut cfg db state) :
    Shut cfg db (state.note remarks) :=
  ⟨shut.unopened, fun job member => (shut.isSealed job member).note⟩

theorem Shut.sameAttempts {next : Db} (same : next.attempts = db.attempts)
    (shut : Shut cfg db state) : Shut cfg next state :=
  ⟨shut.unopened, fun job member =>
    (shut.isSealed job member).sameAttempts same⟩

theorem shut_of_idle (idle : state.pending = []) : Shut cfg db state := by
  constructor
  · intro attempt member
    rw [idle] at member
    cases member
  · intro job member
    rw [idle] at member
    cases member

end Sealed

/-! ## The judgement -/

/-- The other sessions may do what they do; a commit must be sealed. -/
def sealing (cfg : Config) : Terms Db Write Lock where
  keeps := fun _ _ => True
  vow := Sealed cfg

/-- What an exception leaves: between transactions what a return leaves, and
inside a transaction anything, as it is rolled back. -/
def Escaping (cfg : Config) (whole : Bool) (db : Db) (state : Loc) : Prop :=
  whole = true → Shut cfg db state

/-- The script commits sealed transactions only. -/
def Seals (cfg : Config) (whole : Bool) {α : Type} (script : Sql α) : Prop :=
  (backend cfg).Yields (sealing cfg) (Shut cfg) script (fun _ => Shut cfg)
    fun _ => Escaping cfg whole

namespace Seals

variable {cfg : Config} {whole : Bool} {α β : Type}

theorem chains : Setting.Chains (sealing cfg) where
  refl := fun _ => trivial
  trans := fun _ _ _ _ _ => trivial

theorem lasts : (backend cfg).Lasts (sealing cfg) (Shut cfg) :=
  Stable.lasts shut_stable

theorem lasts_escaping (exception : Exc) :
    (backend cfg).Lasts (sealing cfg)
      ((fun _ => Escaping cfg whole : Exc → Db → Loc → Prop) exception) := by
  apply Stable.lasts
  intro first second state env inv guarded holds isWhole
  exact shut_stable first second state env inv guarded (holds isWhole)

theorem pure (value : α) : Seals cfg whole (Pure.pure value : Sql α) :=
  Yields.pure lasts fun _ _ _ _ holds => holds

theorem raise (exception : Exc) :
    Seals cfg whole (Script.raise exception : Sql α) :=
  Yields.raise lasts fun _ _ _ holds _ => holds

theorem diverge : Seals cfg whole (Script.diverge : Sql α) :=
  fun _ _ _ _ _ => trivial

theorem observe (query : Db → α) (remark : α → List Write) :
    Seals cfg whole (Script.observe query remark : Sql α) := by
  intro db state good guarded shut after mild last next
  have here := lasts db after state mild good guarded shut
  exact lasts after last _ next mild.fine guarded (here.note _)

theorem read (query : Db → α) : Seals cfg whole (Script.read query : Sql α) :=
  observe query _

theorem bind {first : Sql β} {next : β → Sql α}
    (begins : Seals cfg whole first)
    (rest : ∀ value, Seals cfg whole (next value)) :
    Seals cfg whole (first >>= next) :=
  Yields.bind chains lasts_escaping begins rest

theorem map {first : Sql β} {result : β → α} (begins : Seals cfg whole first) :
    Seals cfg whole (result <$> first) :=
  Yields.map chains (fun _ => lasts) lasts_escaping begins

theorem inner {script : Sql α} (seals : Seals cfg whole script) :
    Seals cfg false script :=
  Yields.strengthen seals (fun _ _ _ _ holds => holds)
    fun _ _ _ _ _ isWhole => by cases isWhole

/-- What is left pending when a session ends is lost. -/
theorem session_of {body : Sql α} {left : α → Db → Loc → Prop}
    (lastsLeft : ∀ value, (backend cfg).Lasts (sealing cfg) (left value))
    (seals : (backend cfg).Yields (sealing cfg) (Shut cfg) body left
      fun _ => Escaping cfg false) :
    Seals cfg whole (session body) :=
  Yields.session chains seals lastsLeft lasts_escaping (fun _ => lasts)
    lasts_escaping (fun _ _ _ _ _ => shut_of_idle rfl)
    fun _ _ _ _ _ _ => shut_of_idle rfl

theorem session {body : Sql α} (seals : Seals cfg false body) :
    Seals cfg whole (Script.session body) :=
  session_of (fun _ => lasts) seals

theorem quietly {body : Sql α} (seals : Seals cfg true body) :
    Seals cfg whole (Script.quietly body) :=
  Yields.quietly chains lasts (Yields.strengthen seals
    (fun _ _ _ _ holds => holds) fun _ _ _ _ holds => holds rfl)

theorem commit_of {pre : Db → Loc → Prop}
    (lastsPre : (backend cfg).Lasts (sealing cfg) pre)
    (isSealed : ∀ db state, pre db state → Sealed cfg db state) :
    (backend cfg).Yields (sealing cfg) pre (Script.commit : Sql Unit)
      (fun _ => Shut cfg) fun _ => Escaping cfg whole :=
  Yields.commit lastsPre lasts fun db state _ _ holds =>
    ⟨isSealed db state holds, fun _ => shut_of_idle rfl⟩

theorem commit : Seals cfg whole (Script.commit : Sql Unit) :=
  commit_of lasts fun _ _ shut => shut.isSealed

theorem rollback_of {pre : Db → Loc → Prop}
    (lastsPre : (backend cfg).Lasts (sealing cfg) pre) :
    (backend cfg).Yields (sealing cfg) pre (Script.rollback : Sql Unit)
      (fun _ => Shut cfg) fun _ => Escaping cfg whole :=
  Yields.rollback lastsPre lasts fun _ _ _ _ => shut_of_idle rfl

theorem rollback : Seals cfg whole (Script.rollback : Sql Unit) :=
  rollback_of lasts

theorem whenever {condition : Bool} {body : Sql Unit}
    (seals : Seals cfg whole body) :
    Seals cfg whole (Script.whenever condition body) := by
  cases condition with
  | true => exact seals
  | false => exact pure ()

theorem each {γ : Type} {body : γ → Sql Unit} {elements : List γ}
    (round : ∀ element ∈ elements, Seals cfg whole (body element)) :
    Seals cfg whole (Script.each body elements) := by
  induction elements with
  | nil => exact pure ()
  | cons element rest ih =>
      refine bind (round element (by simp)) fun _ => ih ?_
      intro later member
      exact round later (List.mem_cons_of_mem _ member)

/-- A statement that moves no job and opens no attempt. -/
theorem exec {statement : Stmt α}
    (light : ∀ snapshot current others effect,
      statement snapshot current others = some effect →
      (∀ write ∈ effect.writes, write.isLight = true) ∧
        ∀ db, ((schema cfg.dialect).applyAll effect.atOnce db).attempts =
          db.attempts) :
    Seals cfg whole (Script.exec statement : Sql α) := by
  apply Yields.exec lasts fun _ => lasts
  intro snapshot current state others effect _ _ _ _ _ shut ran
  obtain ⟨writes, atOnce⟩ := light _ _ _ _ ran
  exact (shut.extend writes).sameAttempts (atOnce current)

end Seals

section Transitions

variable {cfg : Config} {whole : Bool}

theorem seals_dml {K V : Type} [DecidableEq K] {key : V → K}
    {table : Db → Table key} {admits : Db → V → Bool} {write : V → Write}
    (light : ∀ row, (write row).isLight = true) :
    Seals cfg whole (exec (dml table cfg admits write)) := by
  apply Seals.exec
  intro snapshot current others effect ran
  cases ran
  refine ⟨fun emitted member => ?_, fun _ => rfl⟩
  obtain ⟨row, _, rfl⟩ := List.mem_map.mp member
  exact light row

theorem seals_insertUnlessFound {K V : Type} [DecidableEq K] {key : V → K}
    {table : Db → Table key} {lock : V → Lock} {insert found : V → Write}
    {rows : List V} (inserts : ∀ row, (insert row).isLight = true)
    (finds : ∀ row, (found row).isLight = true) :
    Seals cfg whole
      (exec (insertUnlessFound table cfg lock insert found rows)) := by
  apply Seals.exec
  intro snapshot current others effect ran
  simp only [insertUnlessFound] at ran
  split at ran
  · cases ran
  · cases ran
    refine ⟨fun emitted member => ?_, fun _ => rfl⟩
    obtain ⟨row, _, rfl⟩ := List.mem_map.mp member
    split
    · exact finds row
    · exact inserts row

theorem seals_locking {α : Type} {statement : Stmt α}
    (locks : ∀ snapshot current others effect,
      statement snapshot current others = some effect →
      effect.writes = [] ∧ effect.atOnce = []) :
    Seals cfg whole (exec statement) := by
  apply Seals.exec
  intro snapshot current others effect ran
  obtain ⟨writes, atOnce⟩ := locks snapshot current others effect ran
  rw [writes, atOnce]
  exact ⟨fun write member => (List.not_mem_nil member).elim, fun _ => rfl⟩

/-! ## A move -/

/-- No attempt of a job whose row is held appears. -/
theorem runs_before {first second : Db} {state : Loc}
    {job : JobId} (env : (backend cfg).Env state.held first second)
    (inv : Inv first) (guarded : Guarded (schema cfg.dialect) state)
    (owned : Owns cfg.dialect state (.live job)) {attempt : Attempt}
    (member : attempt ∈ second.attempts.rows)
    (runs : attempt.runs job = true) : attempt ∈ first.attempts.rows := by
  have stable : (backend cfg).Stable fun db state =>
      Owns cfg.dialect state (.live job) ∧ ∀ attempt ∈ db.attempts.rows,
        attempt.runs job = true → attempt ∈ first.attempts.rows := by
    apply stable_of
    · intro db mine theirs other stage _ _ _ lawful _ apart holds
      refine ⟨holds.1, fun attempt member runs => ?_⟩
      exact holds.2 attempt
        (runs_of_kept lawful apart holds.1 member runs) runs
    · intro db next mine same holds
      refine ⟨holds.1, ?_⟩
      rw [same.attempts]
      exact holds.2
  exact (stable first second state env inv guarded
    ⟨owned, fun _ member _ => member⟩).2 attempt member runs

theorem lockForMove_seals {fence : MoveFence} :
    (backend cfg).Yields (sealing cfg) (Shut cfg) (lockForMove cfg fence)
      (fun rows db state => Shut cfg db state ∧ (rows ≠ [] →
        ∀ lock ∈ moveLock cfg fence.jobId, lock ∈ state.held))
      fun _ => Escaping cfg whole := by
  have lasts : ∀ rows : List Job, (backend cfg).Lasts (sealing cfg)
      fun db state => Shut cfg db state ∧ (rows ≠ [] →
        ∀ lock ∈ moveLock cfg fence.jobId, lock ∈ state.held) :=
    fun rows => Lasts.and Seals.lasts Lasts.local
  unfold lockForMove
  split
  · rename_i isDialect
    apply Yields.exec Seals.lasts lasts
    intro snapshot current state others effect _ _ _ _ _ shut ran
    cases ran
    refine ⟨shut.extend (by simp), fun found => ?_⟩
    obtain ⟨row, isRow⟩ := List.exists_mem_of_ne_nil _ found
    have isJob := admits_id (mem_targets_iff.mp isRow).2.1
    intro lock member
    simp only [moveLock, isDialect, List.mem_singleton] at member
    rw [member, ← isJob]
    apply List.mem_append_right
    exact List.mem_append_left _ (List.mem_map.mpr ⟨row, isRow, rfl⟩)
  · rename_i isDialect
    apply Yields.read Seals.lasts lasts
    intro db state _ _ shut
    refine ⟨shut, fun _ lock member => ?_⟩
    simp [moveLock, isDialect] at member

theorem insertHistory_seals {fence : MoveFence} {status : Status}
    {values : Values} {now : Time} :
    (backend cfg).Yields (sealing cfg)
      (fun db state => Shut cfg db state ∧
        ∀ lock ∈ moveLock cfg fence.jobId, lock ∈ state.held)
      (insertHistory cfg fence status values now)
      (fun _ db state => Shut cfg db state ∧
        Owns cfg.dialect state (.live fence.jobId))
      fun _ => Escaping cfg whole := by
  apply Yields.exec (Lasts.and Seals.lasts Lasts.local) fun _ =>
    Lasts.and Seals.lasts Lasts.local
  intro snapshot current state others effect _ _ _ _ _ holds ran
  cases ran
  constructor
  · apply holds.1.extend
    intro write member
    obtain ⟨row, _, rfl⟩ := List.mem_map.mp member
    rfl
  · cases isDialect : cfg.dialect with
    | postgresql =>
        have owned := owns_of_moveLock isDialect holds.2
        rw [isDialect] at owned
        exact List.mem_append_left _ owned
    | sqlite =>
        apply List.mem_append_right
        apply List.mem_append_left
        simp [writerLock, lockOf]

theorem deleteLive_seals {fence : MoveFence} :
    (backend cfg).Yields (sealing cfg)
      (fun db state => Shut cfg db state ∧
        Owns cfg.dialect state (.live fence.jobId))
      (deleteLive cfg fence) (fun _ => Emptying cfg fence.jobId)
      fun _ => Escaping cfg false := by
  apply Yields.bind Seals.chains Seals.lasts_escaping
  · apply Yields.exec (Lasts.and Seals.lasts Lasts.local) fun _ =>
      Stable.lasts (emptying_stable _)
    intro snapshot current state others effect _ _ _ _ _ holds ran
    cases ran
    obtain ⟨shut, owned⟩ := holds
    refine ⟨?_, List.mem_append_left _ owned, ?_⟩
    · intro attempt member
      rcases List.mem_append.mp member with old | new
      · exact shut.unopened attempt old
      · obtain ⟨_, _, same⟩ := List.mem_map.mp new
        cases same
    · intro other member different
      rcases List.mem_append.mp member with old | new
      · refine (shut.isSealed other old).extend fun attempt isNew => ?_
        obtain ⟨_, _, same⟩ := List.mem_map.mp isNew
        cases same
      · obtain ⟨row, isRow, same⟩ := List.mem_map.mp new
        cases same
        exact (different (admits_id (mem_targets_iff.mp isRow).2.1)).elim
  · intro rows
    exact Yields.pure (Stable.lasts (emptying_stable _))
      fun _ _ _ _ holds => holds

/-- What is still open of the moved job is closed. -/
theorem closeStragglers_seals {job : JobId} {status : Status} {now : Time} :
    (backend cfg).Yields (sealing cfg) (Emptying cfg job)
      (closeStragglersStmt cfg job status now) (fun _ => Shut cfg)
      fun _ => Escaping cfg false := by
  apply Yields.bind Seals.chains Seals.lasts_escaping
  · apply Yields.exec (Stable.lasts (emptying_stable _)) fun _ => Seals.lasts
    intro snapshot current state others effect good _ guarded mild _ holds ran
    cases ran
    have unopened : ∀ attempt, Write.insertAttempt attempt ∉
        (targets Db.attempts
          (fun _ attempt => decide (attempt.jobId = job) && attempt.isOpen)
          (basis cfg.dialect ((backend cfg).sys.view snapshot state)
            ((backend cfg).sys.view current state))
          ((backend cfg).sys.view current state)).map fun attempt =>
            Write.closeAttempt attempt.id attempt.jobId now
              (if status = .success then .success else .abandoned) := by
      intro attempt member
      obtain ⟨_, _, same⟩ := List.mem_map.mp member
      cases same
    refine ⟨?_, ?_⟩
    · intro attempt member
      rcases List.mem_append.mp member with old | new
      · exact holds.unopened attempt old
      · exact unopened attempt new
    intro moved member
    have earlier : .deleteLive moved ∈ state.pending := by
      rcases List.mem_append.mp member with old | new
      · exact old
      · obtain ⟨_, _, same⟩ := List.mem_map.mp new
        cases same
    by_cases same : moved = job
    · subst same
      refine .closed (List.mem_append_left _ holds.owns) ?_ ?_
      · intro attempt stored runs
        simp only [Local.extend, List.filterMap_append, List.mem_append]
        by_cases isClosed : attempt.id ∈ state.pending.filterMap closedId
        · exact Or.inl isClosed
        · right
          have kept : ∀ write ∈ state.pending, ¬closes attempt.id write := by
            rintro write isWrite ⟨owner, time, outcome, rfl⟩
            exact isClosed (List.mem_filterMap.mpr ⟨_, isWrite, rfl⟩)
          have before := runs_before mild.env good.inv guarded holds.owns
            stored runs
          have atCurrent := attempts_after_kept
            (Table.get_of_mem stored) kept
          have atSnapshot := attempts_after_kept
            (Table.get_of_mem before) kept
          obtain ⟨isJob, isOpen⟩ := runs_iff.mp runs
          refine List.mem_filterMap.mpr ⟨_, List.mem_map.mpr
            ⟨attempt, mem_targets_iff.mpr ⟨atCurrent, ?_, ?_⟩, rfl⟩, rfl⟩
          · simp [isJob, isOpen]
          · refine ⟨attempt, ?_, by simp [isJob, isOpen]⟩
            cases isDialect : cfg.dialect with
            | postgresql => exact atSnapshot
            | sqlite => exact atCurrent
      · intro attempt isNew
        rcases List.mem_append.mp isNew with old | new
        · exact (holds.unopened attempt old).elim
        · exact (unopened attempt new).elim
    · exact (holds.others moved earlier same).extend unopened
  · intro rows
    exact Yields.pure Seals.lasts fun _ _ _ _ holds => holds

theorem finishIn_seals {fence : MoveFence} {status : Status}
    {values : Values} : Seals cfg false (finishIn cfg fence status values) := by
  apply Seals.bind (.read _)
  intro now
  apply Yields.bind Seals.chains Seals.lasts_escaping lockForMove_seals
  intro locked
  split
  · exact Yields.pure (Lasts.and Seals.lasts Lasts.local)
      fun _ _ _ _ holds => holds.1
  · rename_i found
    refine Yields.weaken (Yields.bind Seals.chains Seals.lasts_escaping
      insertHistory_seals fun inserted => ?_)
      fun db state _ holds => ⟨holds.1, holds.2 found⟩
    apply Yields.bind Seals.chains Seals.lasts_escaping deleteLive_seals
    intro deleted
    have lasts : (backend cfg).Lasts (sealing cfg)
        (Emptying cfg fence.jobId) := Stable.lasts (emptying_stable _)
    split
    · apply Yields.bind Seals.chains Seals.lasts_escaping
      · exact Yields.read lasts (fun _ => lasts) fun _ _ _ _ holds => holds
      · intro later
        apply Yields.bind Seals.chains Seals.lasts_escaping
          closeStragglers_seals
        exact fun _ => Seals.pure _
    · exact Yields.raise lasts fun _ _ _ _ isWhole => by cases isWhole

/-! ## Opening an attempt -/

/-- The transaction has not taken the row of the job away. -/
def Sees (job : JobId) (state : Loc) : Prop :=
  .deleteLive job ∈ state.pending →
    ∃ row, .insertLive row ∈ state.pending ∧ row.id = job

theorem sees_of_live {db : Db} {state : Loc} {job : JobId} {row : Job}
    (live : (after state.pending db).live.get job = some row) :
    Sees job state := by
  intro moved
  by_contra unseen
  have gone : (after state.pending db).live.get job = none :=
    live_after_removed moved (Or.inl rfl)
      fun row inserted isJob => unseen ⟨row, inserted, isJob⟩
  rw [live] at gone
  cases gone

theorem sealed_opened {db : Db} {state : Loc} {attempt : Attempt}
    {locks : List Lock} (shut : Shut cfg db state)
    (sees : Sees attempt.jobId state) :
    Sealed cfg db (state.extend [.insertAttempt attempt] locks) := by
  intro job member
  have moved : .deleteLive job ∈ state.pending := by
    rcases List.mem_append.mp member with old | new
    · exact old
    · cases List.mem_singleton.mp new
  by_cases same : attempt.jobId = job
  · obtain ⟨row, inserted, isJob⟩ := sees (same ▸ moved)
    exact .renewed row (List.mem_append_left _ inserted) (isJob.trans same)
  · cases shut.isSealed job moved with
    | renewed row inserted isJob =>
        exact .renewed row (List.mem_append_left _ inserted) isJob
    | closed owned closes unopened =>
        refine .closed (List.mem_append_left _ owned) ?_ ?_
        · intro attempt stored runs
          simp only [Local.extend, List.filterMap_append, List.mem_append]
          exact Or.inl (closes attempt stored runs)
        · intro new isNew
          rcases List.mem_append.mp isNew with old | here
          · exact unopened new old
          · cases List.mem_singleton.mp here
            exact same

theorem lasts_sealed : (backend cfg).Lasts (sealing cfg) (Sealed cfg) :=
  Stable.lasts sealed_stable

theorem lasts_sees {job : JobId} :
    (backend cfg).Lasts (sealing cfg) fun db state =>
      Shut cfg db state ∧ Sees job state :=
  Lasts.and Seals.lasts Lasts.local

theorem lockJob_seals {job : Job} :
    (backend cfg).Yields (sealing cfg) (Shut cfg) (lockJob cfg job)
      (fun found db state => Shut cfg db state ∧
        (found.isSome = true → Sees job.id state))
      fun _ => Escaping cfg whole := by
  have lasts : ∀ found : Option Job, (backend cfg).Lasts (sealing cfg)
      fun db state => Shut cfg db state ∧
        (found.isSome = true → Sees job.id state) :=
    fun _ => Lasts.and Seals.lasts Lasts.local
  unfold lockJob
  split
  · have locks : (backend cfg).Yields (sealing cfg) (Shut cfg)
        (exec (selectSkipLocked Db.live (fun row => .live row.id)
          (fun _ => sameRow job) id 1) : Sql (List Job))
        (fun rows db state => Shut cfg db state ∧
          (rows.head?.isSome = true → Sees job.id state))
        fun _ => Escaping cfg whole := by
      apply Yields.exec Seals.lasts fun rows : List Job => lasts rows.head?
      intro snapshot current state others effect _ _ _ _ _ shut ran
      cases ran
      refine ⟨shut.extend (by simp), fun found => ?_⟩
      obtain ⟨row, isFirst⟩ := Option.isSome_iff_exists.mp found
      have isRow := List.mem_of_mem_take (List.mem_of_mem_head? isFirst)
      obtain ⟨old, _, picked⟩ := List.mem_filterMap.mp isRow
      split at picked
      · cases picked
      · rw [Option.filter_eq_some_iff] at picked
        have isJob : row.id = job.id := by
          have same := picked.2
          simp only [sameRow, Bool.and_eq_true, decide_eq_true_eq] at same
          exact same.1
        have keyed : row.id = old.id := Table.key_of_get picked.1
        have live := picked.1
        rw [← keyed, isJob] at live
        have sees : Sees job.id state := sees_of_live live
        intro moved
        simp only [Local.extend, List.append_nil] at moved ⊢
        exact sees moved
    exact Yields.bind Seals.chains Seals.lasts_escaping locks fun rows =>
      Yields.pure (lasts _) fun _ _ _ _ holds => holds
  · apply Yields.read Seals.lasts lasts
    intro db state _ _ shut
    refine ⟨shut, fun found => ?_⟩
    obtain ⟨row, isFirst⟩ := Option.isSome_iff_exists.mp found
    have isRow := List.mem_filter.mp (List.mem_of_mem_head? isFirst)
    have isJob : row.id = job.id := by
      have same := isRow.2
      simp only [sameRow, Bool.and_eq_true, decide_eq_true_eq] at same
      exact same.1
    have live := Table.get_of_mem isRow.1
    rw [isJob] at live
    exact sees_of_live live

theorem insertAttempt_seals {job : JobId} {worker : Option WorkerId}
    {now : Time} :
    (backend cfg).Yields (sealing cfg)
      (fun db state => Shut cfg db state ∧ Sees job state)
      (insertAttempt cfg job worker now) (fun _ => Sealed cfg)
      fun _ => Escaping cfg false := by
  apply Yields.exec lasts_sees fun _ => lasts_sealed
  intro snapshot current state others effect _ _ _ _ _ holds ran
  cases ran
  intro moved member
  have opened := sealed_opened holds.1 holds.2 moved member
  have same : (Write.nextAttempt.apply current).attempts =
    current.attempts := rfl
  exact opened.sameAttempts same

/-- An attempt is opened last: what follows is the commit. -/
theorem startAttempt_seals {job : Job} {worker : Option WorkerId}
    {now : Time} :
    (backend cfg).Yields (sealing cfg) (Shut cfg)
      (startAttempt cfg job worker now) (fun _ => Sealed cfg)
      fun _ => Escaping cfg false := by
  have ends : ∀ outcome : Option AttemptHandle × ClaimOutcome,
      (backend cfg).Yields (sealing cfg)
        (fun db state => Shut cfg db state ∧ Sees job.id state)
        (pure outcome : Sql (Option AttemptHandle × ClaimOutcome))
        (fun _ => Sealed cfg) fun _ => Escaping cfg false := fun _ =>
    Yields.pure lasts_sees fun _ _ _ _ holds => holds.1.isSealed
  apply Yields.bind Seals.chains Seals.lasts_escaping lockJob_seals
  intro found
  cases found with
  | none =>
      exact Yields.pure (Lasts.and Seals.lasts Lasts.local)
        fun _ _ _ _ holds => holds.1.isSealed
  | some row =>
      refine Yields.weaken ?_ fun db state _ holds =>
        And.intro holds.1 (holds.2 rfl)
      apply Yields.bind Seals.chains Seals.lasts_escaping
      · exact Yields.read lasts_sees (fun _ => lasts_sees)
          fun _ _ _ _ holds => holds
      · intro running
        split
        · apply Yields.bind Seals.chains Seals.lasts_escaping
            insertAttempt_seals
          exact fun handle => Yields.pure lasts_sealed
            fun _ _ _ _ holds => holds
        · split
          · exact ends _
          · exact ends _

end Transitions

end Sqlery.Standalone
