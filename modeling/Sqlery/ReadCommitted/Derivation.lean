import Sqlery.ReadCommitted.Footprint

/-!
# Where a statement's writes come from

A footprint says what a call writes, whatever it read.  Here the writes of a
statement are related to the data it saw, its snapshot and the current ones.  A
run that allows only statements whose data keep to a rule then commits only
writes that the rule admits.
-/

namespace Sqlery.ReadCommitted

section Programs

variable {Db Write Lock α β : Type}

/-- The statements of the program write what their data admit. -/
def Prog.Derives (sees : Db → Prop) (derives : Db → Db → Write → Prop)
    (drifts : Write → Prop) (post : α → Prop) : Prog Db Write Lock α → Prop
  | .done value => post value
  | .halt => True
  | .query read _ next =>
      ∀ db, sees db → (next (read db)).Derives sees derives drifts post
  | .exec statement next =>
      ∀ snapshot current others effect, sees snapshot → sees current →
        statement snapshot current others = some effect →
        (∀ write ∈ effect.writes, derives snapshot current write) ∧
          (∀ write ∈ effect.atOnce, drifts write) ∧
          (next effect.result).Derives sees derives drifts post
  | .commit next => next.Derives sees derives drifts post
  | .rollback next => next.Derives sees derives drifts post

variable {sees : Db → Prop} {derives : Db → Db → Write → Prop}
variable {drifts : Write → Prop}

theorem Prog.Derives.bind {middle : α → Prop} {post : β → Prop}
    {program : Prog Db Write Lock α} {next : α → Prog Db Write Lock β}
    (begins : program.Derives sees derives drifts middle)
    (rest : ∀ value, middle value →
      (next value).Derives sees derives drifts post) :
    (program.bind next).Derives sees derives drifts post := by
  induction program with
  | done value => exact rest value begins
  | halt => trivial
  | query read remark tail ih =>
      exact fun db seen => ih (read db) (begins db seen)
  | exec statement tail ih =>
      intro snapshot current others effect first second ran
      obtain ⟨writes, atOnce, later⟩ :=
        begins snapshot current others effect first second ran
      exact ⟨writes, atOnce, ih _ later⟩
  | commit tail ih => exact ih begins
  | rollback tail ih => exact ih begins

theorem Prog.Derives.mono {derives' : Db → Db → Write → Prop}
    {post post' : α → Prop} {program : Prog Db Write Lock α}
    (begins : program.Derives sees derives drifts post)
    (derived : ∀ snapshot current write, derives snapshot current write →
      derives' snapshot current write)
    (returned : ∀ value, post value → post' value) :
    program.Derives sees derives' drifts post' := by
  induction program with
  | done value => exact returned value begins
  | halt => trivial
  | query read remark tail ih =>
      exact fun db holds => ih (read db) (begins db holds)
  | exec statement tail ih =>
      intro snapshot current others effect first second ran
      obtain ⟨writes, atOnce, later⟩ :=
        begins snapshot current others effect first second ran
      exact ⟨fun write member => derived _ _ _ (writes write member), atOnce,
        ih _ later⟩
  | commit tail ih => exact ih begins
  | rollback tail ih => exact ih begins

/-- What a program writes in any case. -/
theorem Prog.Derives.of_emits {seen : Db → Prop} {emits drifted : Write → Prop}
    {post : α → Prop} {program : Prog Db Write Lock α}
    (begins : program.Emits seen emits drifted post)
    (sees' : ∀ db, sees db → seen db)
    (emitted : ∀ snapshot current write, emits write →
      derives snapshot current write)
    (drifts' : ∀ write, drifted write → drifts write) :
    program.Derives sees derives drifts post := by
  induction program with
  | done value => exact begins
  | halt => trivial
  | query read remark tail ih =>
      exact fun db holds => ih (read db) (begins db (sees' db holds))
  | exec statement tail ih =>
      intro snapshot current others effect first second ran
      obtain ⟨writes, atOnce, later⟩ := begins snapshot current others effect
        (sees' _ first) (sees' _ second) ran
      exact ⟨fun write member => emitted _ _ _ (writes write member),
        fun write member => drifts' write (atOnce write member), ih _ later⟩
  | commit tail ih => exact ih begins
  | rollback tail ih => exact ih begins

end Programs

/-! ## Scripts -/

namespace Script

variable {Db Write Lock ε α β : Type}

def DerivesWith (sees : Db → Prop) (derives : Db → Db → Write → Prop)
    (drifts : Write → Prop) (script : Script Db Write Lock ε α)
    (post : α → Prop) : Prop :=
  Prog.Derives sees derives drifts
    (fun result => match result with
      | .ok value => post value
      | .error _ => True) script.run

/-- The script's writes come from its data, whatever it returns. -/
def Derives (sees : Db → Prop) (derives : Db → Db → Write → Prop)
    (drifts : Write → Prop) (script : Script Db Write Lock ε α) : Prop :=
  DerivesWith sees derives drifts script fun _ => True

variable {sees : Db → Prop} {derives : Db → Db → Write → Prop}
variable {drifts : Write → Prop}

namespace DerivesWith

variable {post : α → Prop}

theorem pure {value : α} (holds : post value) :
    DerivesWith sees derives drifts
      (Pure.pure value : Script Db Write Lock ε α) post := holds

theorem read {query : Db → α} (holds : ∀ db, sees db → post (query db)) :
    DerivesWith sees derives drifts
      (Script.read query : Script Db Write Lock ε α) post := holds

theorem raise (exception : ε) :
    DerivesWith sees derives drifts
      (Script.raise exception : Script Db Write Lock ε α) post := trivial

theorem bind {middle : β → Prop} {first : Script Db Write Lock ε β}
    {next : β → Script Db Write Lock ε α}
    (begins : DerivesWith sees derives drifts first middle)
    (rest : ∀ value, middle value →
      DerivesWith sees derives drifts (next value) post) :
    DerivesWith sees derives drifts (first >>= next) post := by
  apply Prog.Derives.bind begins
  intro result holds
  cases result with
  | ok value => exact rest value holds
  | error exception => trivial

theorem weaken {weaker : α → Prop} {script : Script Db Write Lock ε α}
    (begins : DerivesWith sees derives drifts script post)
    (implies : ∀ value, post value → weaker value) :
    DerivesWith sees derives drifts script weaker := by
  apply Prog.Derives.mono begins fun _ _ _ derived => derived
  intro result holds
  cases result with
  | ok value => exact implies value holds
  | error exception => trivial

theorem session {body : Script Db Write Lock ε α}
    (inner : DerivesWith sees derives drifts body post) :
    DerivesWith sees derives drifts (Script.session body) post :=
  Prog.Derives.bind inner fun _ holds => holds

/-- A part whose result does not matter. -/
theorem after {first : Script Db Write Lock ε β}
    {next : β → Script Db Write Lock ε α}
    (begins : Derives sees derives drifts first)
    (rest : ∀ value, DerivesWith sees derives drifts (next value) post) :
    DerivesWith sees derives drifts (first >>= next) post :=
  bind begins fun value _ => rest value

end DerivesWith

namespace Derives

theorem pure (value : α) :
    Derives sees derives drifts
      (Pure.pure value : Script Db Write Lock ε α) := trivial

theorem raise (exception : ε) :
    Derives sees derives drifts
      (Script.raise exception : Script Db Write Lock ε α) := trivial

theorem diverge :
    Derives sees derives drifts
      (Script.diverge : Script Db Write Lock ε α) := trivial

theorem read (query : Db → α) :
    Derives sees derives drifts
      (Script.read query : Script Db Write Lock ε α) :=
  fun _ _ => trivial

theorem exec {statement : Statement Db Write Lock α}
    (writes : ∀ snapshot current others effect, sees snapshot →
      sees current → statement snapshot current others = some effect →
      (∀ write ∈ effect.writes, derives snapshot current write) ∧
        ∀ write ∈ effect.atOnce, drifts write) :
    Derives sees derives drifts
      (Script.exec statement : Script Db Write Lock ε α) := by
  intro snapshot current others effect first second ran
  obtain ⟨derived, atOnce⟩ :=
    writes snapshot current others effect first second ran
  exact ⟨derived, atOnce, trivial⟩

theorem commit :
    Derives sees derives drifts
      (Script.commit : Script Db Write Lock ε Unit) := trivial

theorem rollback :
    Derives sees derives drifts
      (Script.rollback : Script Db Write Lock ε Unit) := trivial

theorem bind {first : Script Db Write Lock ε β}
    {next : β → Script Db Write Lock ε α}
    (begins : Derives sees derives drifts first)
    (rest : ∀ value, Derives sees derives drifts (next value)) :
    Derives sees derives drifts (first >>= next) :=
  DerivesWith.bind begins fun value _ => rest value

/-- A part whose result is known. -/
theorem bindWith {middle : β → Prop} {first : Script Db Write Lock ε β}
    {next : β → Script Db Write Lock ε α}
    (begins : DerivesWith sees derives drifts first middle)
    (rest : ∀ value, middle value → Derives sees derives drifts (next value)) :
    Derives sees derives drifts (first >>= next) :=
  DerivesWith.bind begins rest

theorem map {first : Script Db Write Lock ε β} {result : β → α}
    (begins : Derives sees derives drifts first) :
    Derives sees derives drifts (result <$> first) := by
  apply Prog.Derives.bind begins
  intro returned _
  cases returned <;> trivial

theorem session {body : Script Db Write Lock ε α}
    (inner : Derives sees derives drifts body) :
    Derives sees derives drifts (Script.session body) :=
  DerivesWith.session inner

theorem quietly {body : Script Db Write Lock ε α}
    (inner : Derives sees derives drifts body) :
    Derives sees derives drifts (Script.quietly body) :=
  Prog.Derives.bind inner fun _ _ => trivial

theorem whenever {condition : Bool} {body : Script Db Write Lock ε Unit}
    (inner : Derives sees derives drifts body) :
    Derives sees derives drifts (Script.whenever condition body) := by
  cases condition
  · exact trivial
  · exact inner

end Derives

end Script

/-! ## Runs -/

variable {Db Write Lock Call α : Type} {n : Nat}

/-- What the calls of a system write, where it comes from, and the invariant
that keeps. -/
structure Derivation (sys : System Db Write Lock Call α) where
  inv : Db → Prop
  /-- The calls that are made. -/
  made : Call → Prop
  /-- Where the writes of a call's statements come from. -/
  derives : Call → Db → Db → Write → Prop
  /-- The writes that keep the invariant. -/
  keeps : Write → Prop
  bodies : ∀ call, made call →
    (sys.body call).Derives inv (derives call) keeps fun _ => True
  kept : ∀ db write, keeps write → inv db → inv (sys.schema.apply write db)
  ambient : ∀ write, sys.ambient write = true → keeps write

namespace System

/-- The statement that takes effect with a step of the process, its snapshot,
the data it sees and what it writes. -/
inductive TakesEffect (sys : System Db Write Lock Call α)
    (state : State Db Write Lock Call α n) (process : Fin n) (call : Call)
    (snapshot current : Db) (writes : List Write) : Prop where
  | intro {β : Type} (statement : Statement Db Write Lock β)
      (next : β → Prog Db Write Lock α) (effect : Effect Write Lock β) :
      (state.session process).call = some call →
      (state.session process).prog = .exec statement next →
      (state.session process).snapshot = some snapshot →
      sys.view state.db (state.session process).state = current →
      statement snapshot current (sys.others state process) = some effect →
      effect.writes = writes →
      TakesEffect sys state process call snapshot current writes

end System

namespace Derivation

variable {sys : System Db Write Lock Call α} (D : Derivation sys)

/-- The session runs the rest of a call's program. -/
structure Runs (call : Call) (session : Session Db Write Lock Call α) :
    Prop where
  isCall : session.call = some call
  prog : session.prog.Derives D.inv (D.derives call) D.keeps fun _ => True
  pending : ∀ write ∈ session.state.pending, D.keeps write
  snapshot : ∀ snapshot, session.snapshot = some snapshot → D.inv snapshot

/-- The session runs some call, or has never run one. -/
inductive Fits (session : Session Db Write Lock Call α) : Prop where
  | unused : session.prog = .halt → session.state.pending = [] →
      session.snapshot = none → Fits session
  | runs (call : Call) : D.Runs call session → Fits session

structure Good (state : State Db Write Lock Call α n) : Prop where
  inv : D.inv state.db
  fits : ∀ process, D.Fits (state.session process)

/-- The statement that takes effect with an action writes nothing that breaks
the invariant. -/
def Keeping (state : State Db Write Lock Call α n)
    (action : Action Write Call n) : Prop :=
  ∀ process call snapshot current writes, action = .step process →
    sys.TakesEffect state process call snapshot current writes →
    ∀ write ∈ writes, D.derives call snapshot current write → D.keeps write

variable {D} {state next : State Db Write Lock Call α n}
variable {action : Action Write Call n}

theorem inv_applyAll {writes : List Write} {db : Db} (inv : D.inv db)
    (keeps : ∀ write ∈ writes, D.keeps write) :
    D.inv (sys.schema.applyAll writes db) := by
  induction writes generalizing db with
  | nil => exact inv
  | cons write writes ih =>
      rw [Schema.applyAll_cons]
      exact ih (D.kept db write (keeps write (by simp)) inv)
        fun later member => keeps later (by simp [member])

theorem Good.replace {process : Fin n} {db : Db}
    {session : Session Db Write Lock Call α}
    {journal : List (Call × List Write)} (good : D.Good state)
    (inv : D.inv db) (fits : D.Fits session) :
    D.Good (State.replace { state with db, journal } process session) where
  inv := inv
  fits := by
    intro other
    by_cases same : other = process
    · subst same
      simpa [State.replace] using fits
    · simpa [State.replace, same] using good.fits other

/-- One step of a session that runs a call. -/
theorem Good.advance {process : Fin n} {call : Call} (good : D.Good state)
    (runs : D.Runs call (state.session process))
    (keeping : D.Keeping state (.step process))
    (taken : sys.advance state process = some next) : D.Good next := by
  have body := runs.prog
  have seen : D.inv (sys.view state.db (state.session process).state) :=
    inv_applyAll good.inv runs.pending
  simp only [System.advance] at taken
  split at taken
  · cases taken
  · cases taken
  · rename_i β read remark rest isQuery
    cases taken
    rw [isQuery] at body
    exact good.replace good.inv
      (.runs call ⟨runs.isCall, body _ seen, runs.pending, runs.snapshot⟩)
  · rename_i β statement rest isExec
    rw [isExec] at body
    split at taken
    · cases taken
      refine good.replace good.inv (.runs call ⟨runs.isCall, ?_,
        runs.pending, ?_⟩)
      · simpa only [isExec] using body
      · intro snapshot isSnapshot
        cases isSnapshot
        exact seen
    · rename_i snapshot isSnapshot
      split at taken
      · cases taken
      · rename_i effect ran
        split at taken
        · cases taken
        · cases taken
          obtain ⟨derived, atOnce, rest⟩ := body snapshot _ _ effect
            (runs.snapshot snapshot isSnapshot) seen ran
          have kept := keeping process call snapshot _ effect.writes rfl
            ⟨statement, _, effect, runs.isCall, isExec, isSnapshot, rfl, ran,
              rfl⟩
          refine good.replace (inv_applyAll good.inv atOnce)
            (.runs call ⟨runs.isCall, rest, ?_, ?_⟩)
          · intro write member
            rcases List.mem_append.mp member with earlier | fresh
            · exact runs.pending write earlier
            · exact kept write fresh (derived write fresh)
          · intro snapshot isSnapshot
            cases isSnapshot
  · rename_i rest isCommit
    cases taken
    rw [isCommit] at body
    refine good.replace seen (.runs call ⟨runs.isCall, body, ?_,
      runs.snapshot⟩)
    intro write member
    cases member
  · rename_i rest isRollback
    cases taken
    rw [isRollback] at body
    refine good.replace good.inv (.runs call ⟨runs.isCall, body, ?_,
      runs.snapshot⟩)
    intro write member
    cases member

theorem Good.act (good : D.Good state)
    (starts : ∀ process call, action = .start process call → D.made call)
    (keeping : D.Keeping state action)
    (taken : sys.act state action = some next) : D.Good next := by
  cases action with
  | start process call =>
      simp only [System.act] at taken
      split at taken
      · cases taken
        refine good.replace good.inv (.runs call ⟨rfl,
          D.bodies call (starts process call rfl), ?_, ?_⟩)
        · intro write member
          cases member
        · intro snapshot isSnapshot
          cases isSnapshot
      · cases taken
  | step process =>
      simp only [System.act] at taken
      cases good.fits process with
      | unused stopped =>
          simp [System.advance, stopped] at taken
      | runs call runs => exact good.advance runs keeping taken
  | crash process =>
      cases taken
      refine good.replace good.inv ?_
      cases good.fits process with
      | unused => exact .unused rfl rfl rfl
      | runs call runs =>
          refine .runs call ⟨runs.isCall, trivial, ?_, ?_⟩
          · intro write member
            cases member
          · intro snapshot isSnapshot
            cases isSnapshot
  | ambient write =>
      simp only [System.act] at taken
      split at taken
      · rename_i isAmbient
        cases taken
        exact ⟨D.kept _ _ (D.ambient write isAmbient) good.inv, good.fits⟩
      · cases taken

/-- The invariant of a derivation holds in every state that is reached by
statements that keep it. -/
theorem reached {db : Db}
    {allowed : State Db Write Lock Call α n → Action Write Call n → Prop}
    (starts : ∀ state process call, allowed state (.start process call) →
      D.made call)
    (keeping : ∀ state action, allowed state action → D.Keeping state action)
    (inv : D.inv db)
    (reaches : sys.Reaches allowed (System.initial db) state) :
    D.Good state := by
  induction reaches with
  | refl => exact ⟨inv, fun _ => .unused rfl rfl rfl⟩
  | step _ permitted taken ih =>
      apply ih.act _ (keeping _ _ permitted) taken
      intro process call isStart
      subst isStart
      exact starts _ process call permitted

end Derivation

end Sqlery.ReadCommitted
