import Sqlery.ReadCommitted.Script
import Sqlery.ReadCommitted.Steps

/-!
# Footprints

What a program may write, whatever it reads.  A footprint gives every call a
class of writes and checks it statement by statement, without assertions
about the state of the session; an invariant that those writes keep holds in
every state that is reached.
-/

namespace Sqlery.ReadCommitted

section Programs

variable {Db Write Lock α β : Type}

/-- On data that satisfy `sees`, the statements of the program write only what
`emits` admits, at once only what is in `drifts`, and a result satisfies
`post`. -/
def Prog.Emits (sees : Db → Prop) (emits drifts : Write → Prop)
    (post : α → Prop) : Prog Db Write Lock α → Prop
  | .done value => post value
  | .halt => True
  | .query read _ next =>
      ∀ db, sees db → (next (read db)).Emits sees emits drifts post
  | .exec statement next =>
      ∀ snapshot current others effect, sees snapshot → sees current →
        statement snapshot current others = some effect →
        (∀ write ∈ effect.writes, emits write) ∧
          (∀ write ∈ effect.atOnce, drifts write) ∧
          (next effect.result).Emits sees emits drifts post
  | .commit next => next.Emits sees emits drifts post
  | .rollback next => next.Emits sees emits drifts post

variable {sees : Db → Prop} {emits drifts : Write → Prop}

theorem Prog.Emits.bind {middle : α → Prop} {post : β → Prop}
    {program : Prog Db Write Lock α} {next : α → Prog Db Write Lock β}
    (begins : program.Emits sees emits drifts middle)
    (rest : ∀ value, middle value →
      (next value).Emits sees emits drifts post) :
    (program.bind next).Emits sees emits drifts post := by
  induction program with
  | done value => exact rest value begins
  | halt => trivial
  | query read remark tail ih =>
      exact fun db seen => ih (read db) (begins db seen)
  | exec statement tail ih =>
      intro snapshot current others effect first second ran
      obtain ⟨writes, atOnce, later⟩ :=
        begins snapshot current others effect first second ran
      exact ⟨writes, atOnce, ih _ later⟩
  | commit tail ih => exact ih begins
  | rollback tail ih => exact ih begins

theorem Prog.Emits.mono {sees' : Db → Prop} {emits' : Write → Prop}
    {post post' : α → Prop} {program : Prog Db Write Lock α}
    (begins : program.Emits sees emits drifts post)
    (seen : ∀ db, sees' db → sees db)
    (emitted : ∀ write, emits write → emits' write)
    (returned : ∀ value, post value → post' value) :
    program.Emits sees' emits' drifts post' := by
  induction program with
  | done value => exact returned value begins
  | halt => trivial
  | query read remark tail ih =>
      exact fun db holds => ih (read db) (begins db (seen db holds))
  | exec statement tail ih =>
      intro snapshot current others effect first second ran
      obtain ⟨writes, atOnce, later⟩ := begins snapshot current others effect
        (seen _ first) (seen _ second) ran
      exact ⟨fun write member => emitted write (writes write member), atOnce,
        ih _ later⟩
  | commit tail ih => exact ih begins
  | rollback tail ih => exact ih begins

/-- Any program keeps to the footprint that admits everything. -/
theorem Prog.Emits.anything (program : Prog Db Write Lock α) :
    program.Emits (fun _ => True) (fun _ => True) (fun _ => True)
      fun _ => True := by
  induction program with
  | done value => trivial
  | halt => trivial
  | query read remark tail ih => exact fun _ _ => ih _
  | exec statement tail ih =>
      exact fun _ _ _ _ _ _ _ => ⟨fun _ _ => trivial, fun _ _ => trivial, ih _⟩
  | commit tail ih => exact ih
  | rollback tail ih => exact ih

/-- The program leaves only remarks that `leaves` admits. -/
def Prog.Leaves (leaves : List Write → Prop) : Prog Db Write Lock α → Prop
  | .done _ => True
  | .halt => True
  | .query _ remark next =>
      ∀ value, leaves (remark value) ∧ (next value).Leaves leaves
  | .exec _ next => ∀ value, (next value).Leaves leaves
  | .commit next => next.Leaves leaves
  | .rollback next => next.Leaves leaves

theorem Prog.Leaves.bind {leaves : List Write → Prop}
    {program : Prog Db Write Lock α} {next : α → Prog Db Write Lock β}
    (begins : program.Leaves leaves)
    (rest : ∀ value, (next value).Leaves leaves) :
    (program.bind next).Leaves leaves := by
  induction program with
  | done value => exact rest value
  | halt => trivial
  | query read remark tail ih =>
      exact fun value => ⟨(begins value).1, ih value (begins value).2⟩
  | exec statement tail ih => exact fun value => ih value (begins value)
  | commit tail ih => exact ih begins
  | rollback tail ih => exact ih begins

theorem Prog.Leaves.anything (program : Prog Db Write Lock α) :
    program.Leaves fun _ => True := by
  induction program with
  | done value => trivial
  | halt => trivial
  | query read remark tail ih => exact fun value => ⟨trivial, ih value⟩
  | exec statement tail ih => exact fun value => ih value
  | commit tail ih => exact ih
  | rollback tail ih => exact ih

end Programs

/-! ## Scripts -/

namespace Script

variable {Db Write Lock ε α β : Type}

/-- The script's footprint, with what it says about a normal result. -/
def EmitsWith (sees : Db → Prop) (emits drifts : Write → Prop)
    (script : Script Db Write Lock ε α) (post : α → Prop) : Prop :=
  Prog.Emits sees emits drifts
    (fun result => match result with
      | .ok value => post value
      | .error _ => True) script.run

/-- The script's footprint, whatever it returns. -/
def Emits (sees : Db → Prop) (emits drifts : Write → Prop)
    (script : Script Db Write Lock ε α) : Prop :=
  EmitsWith sees emits drifts script fun _ => True

variable {sees : Db → Prop} {emits drifts : Write → Prop}

namespace EmitsWith

variable {post : α → Prop}

theorem pure {value : α} (holds : post value) :
    EmitsWith sees emits drifts
      (Pure.pure value : Script Db Write Lock ε α) post := holds

theorem observe {query : Db → α} {remark : α → List Write}
    (holds : ∀ db, sees db → post (query db)) :
    EmitsWith sees emits drifts
      (Script.observe query remark : Script Db Write Lock ε α) post := holds

theorem read {query : Db → α} (holds : ∀ db, sees db → post (query db)) :
    EmitsWith sees emits drifts
      (Script.read query : Script Db Write Lock ε α) post := holds

theorem raise (exception : ε) :
    EmitsWith sees emits drifts
      (Script.raise exception : Script Db Write Lock ε α) post := trivial

theorem bind {middle : β → Prop} {first : Script Db Write Lock ε β}
    {next : β → Script Db Write Lock ε α}
    (begins : EmitsWith sees emits drifts first middle)
    (rest : ∀ value, middle value →
      EmitsWith sees emits drifts (next value) post) :
    EmitsWith sees emits drifts (first >>= next) post := by
  apply Prog.Emits.bind begins
  intro result holds
  cases result with
  | ok value => exact rest value holds
  | error exception => trivial

theorem weaken {weaker : α → Prop} {script : Script Db Write Lock ε α}
    (begins : EmitsWith sees emits drifts script post)
    (implies : ∀ value, post value → weaker value) :
    EmitsWith sees emits drifts script weaker := by
  apply Prog.Emits.mono begins (fun _ seen => seen) fun _ emitted => emitted
  intro result holds
  cases result with
  | ok value => exact implies value holds
  | error exception => trivial

theorem session {body : Script Db Write Lock ε α}
    (inner : EmitsWith sees emits drifts body post) :
    EmitsWith sees emits drifts (Script.session body) post :=
  Prog.Emits.bind inner fun _ holds => holds

/-- A part whose result does not matter. -/
theorem after {first : Script Db Write Lock ε β}
    {next : β → Script Db Write Lock ε α}
    (begins : Emits sees emits drifts first)
    (rest : ∀ value, EmitsWith sees emits drifts (next value) post) :
    EmitsWith sees emits drifts (first >>= next) post :=
  bind begins fun value _ => rest value

theorem forget {script : Script Db Write Lock ε α}
    (begins : EmitsWith sees emits drifts script post) :
    Emits sees emits drifts script :=
  begins.weaken fun _ _ => trivial

end EmitsWith

namespace Emits

theorem pure (value : α) :
    Emits sees emits drifts
      (Pure.pure value : Script Db Write Lock ε α) := trivial

theorem raise (exception : ε) :
    Emits sees emits drifts
      (Script.raise exception : Script Db Write Lock ε α) := trivial

theorem diverge :
    Emits sees emits drifts
      (Script.diverge : Script Db Write Lock ε α) := trivial

theorem observe (query : Db → α) (remark : α → List Write) :
    Emits sees emits drifts
      (Script.observe query remark : Script Db Write Lock ε α) :=
  fun _ _ => trivial

theorem read (query : Db → α) :
    Emits sees emits drifts
      (Script.read query : Script Db Write Lock ε α) :=
  fun _ _ => trivial

theorem exec {statement : Statement Db Write Lock α}
    (writes : ∀ snapshot current others effect, sees snapshot →
      sees current → statement snapshot current others = some effect →
      (∀ write ∈ effect.writes, emits write) ∧
        ∀ write ∈ effect.atOnce, drifts write) :
    Emits sees emits drifts
      (Script.exec statement : Script Db Write Lock ε α) := by
  intro snapshot current others effect first second ran
  obtain ⟨emitted, atOnce⟩ :=
    writes snapshot current others effect first second ran
  exact ⟨emitted, atOnce, trivial⟩

theorem commit :
    Emits sees emits drifts
      (Script.commit : Script Db Write Lock ε Unit) := trivial

theorem rollback :
    Emits sees emits drifts
      (Script.rollback : Script Db Write Lock ε Unit) := trivial

theorem bind {first : Script Db Write Lock ε β}
    {next : β → Script Db Write Lock ε α}
    (begins : Emits sees emits drifts first)
    (rest : ∀ value, Emits sees emits drifts (next value)) :
    Emits sees emits drifts (first >>= next) :=
  EmitsWith.bind begins fun value _ => rest value

/-- Any script keeps to the footprint that admits everything. -/
theorem anything (script : Script Db Write Lock ε α) :
    Emits (fun _ => True) (fun _ => True) (fun _ => True) script := by
  apply Prog.Emits.mono (.anything script.run) (fun _ seen => seen)
    fun _ emitted => emitted
  intro result _
  cases result <;> trivial

/-- A program that ends with a result of the script's. -/
theorem done (result : Except ε α) :
    Prog.Emits sees emits drifts
      (fun result => match result with
        | .ok _ => True
        | .error _ => True)
      (.done result : Prog Db Write Lock (Except ε α)) := by
  cases result <;> trivial

/-- A part whose result is known. -/
theorem bindWith {middle : β → Prop} {first : Script Db Write Lock ε β}
    {next : β → Script Db Write Lock ε α}
    (begins : EmitsWith sees emits drifts first middle)
    (rest : ∀ value, middle value → Emits sees emits drifts (next value)) :
    Emits sees emits drifts (first >>= next) :=
  EmitsWith.bind begins rest

theorem map {first : Script Db Write Lock ε β} {result : β → α}
    (begins : Emits sees emits drifts first) :
    Emits sees emits drifts (result <$> first) := by
  apply Prog.Emits.bind begins
  intro returned _
  cases returned <;> trivial

theorem session {body : Script Db Write Lock ε α}
    (inner : Emits sees emits drifts body) :
    Emits sees emits drifts (Script.session body) :=
  EmitsWith.session inner

theorem quietly {body : Script Db Write Lock ε α}
    (inner : Emits sees emits drifts body) :
    Emits sees emits drifts (Script.quietly body) :=
  Prog.Emits.bind inner fun _ _ => trivial

theorem whenever {condition : Bool} {body : Script Db Write Lock ε Unit}
    (inner : Emits sees emits drifts body) :
    Emits sees emits drifts (Script.whenever condition body) := by
  cases condition
  · exact trivial
  · exact inner

theorem each {γ : Type} {body : γ → Script Db Write Lock ε Unit}
    {elements : List γ}
    (inner : ∀ element ∈ elements, Emits sees emits drifts (body element)) :
    Emits sees emits drifts (Script.each body elements) := by
  induction elements with
  | nil => exact trivial
  | cons element rest ih =>
      apply bind (inner element (by simp))
      exact fun _ => ih fun later member => inner later (by simp [member])

end Emits

/-- The script leaves no remark. -/
def Silent (script : Script Db Write Lock ε α) : Prop :=
  Prog.Leaves (fun remarks => remarks = []) script.run

theorem Silent.read (query : Db → α) :
    Silent (Script.read query : Script Db Write Lock ε α) :=
  fun _ => ⟨rfl, trivial⟩

theorem Silent.bind {first : Script Db Write Lock ε β}
    {next : β → Script Db Write Lock ε α} (begins : Silent first)
    (rest : ∀ value, Silent (next value)) : Silent (first >>= next) := by
  apply Prog.Leaves.bind begins
  intro result
  cases result with
  | ok value => exact rest value
  | error exception => trivial

theorem Silent.session {body : Script Db Write Lock ε α}
    (inner : Silent body) : Silent (Script.session body) :=
  Prog.Leaves.bind inner fun _ => trivial

end Script

/-! ## Runs -/

variable {Db Write Lock Call α : Type} {n : Nat}

/-- What every call of a system writes, and the invariant that keeps. -/
structure Footprint (sys : System Db Write Lock Call α) where
  inv : Db → Prop
  /-- The calls that are made. -/
  made : Call → Prop
  /-- What a session may assume of the data it sees. -/
  sees : Call → Db → Prop
  emits : Call → Write → Prop
  drifts : Write → Prop
  bodies : ∀ call, made call →
    (sys.body call).Emits (sees call) (emits call) drifts fun _ => True
  seen : ∀ call db pending, inv db →
    (∀ write ∈ pending, emits call write) →
    sees call (sys.schema.applyAll pending db)
  drifting : ∀ db write, drifts write → inv db →
    inv (sys.schema.apply write db)
  ambient : ∀ write, sys.ambient write = true → drifts write

namespace Footprint

variable {sys : System Db Write Lock Call α} (F : Footprint sys)

/-- The session runs the rest of a call's program. -/
structure Runs (call : Call) (session : Session Db Write Lock Call α) :
    Prop where
  isCall : session.call = some call
  prog : session.prog.Emits (F.sees call) (F.emits call) F.drifts fun _ => True
  pending : ∀ write ∈ session.state.pending, F.emits call write
  snapshot : ∀ snapshot, session.snapshot = some snapshot →
    F.sees call snapshot

/-- The session runs some call, or has never run one. -/
inductive Fits (session : Session Db Write Lock Call α) : Prop where
  | unused : session.prog = .halt → session.state.pending = [] →
      session.snapshot = none → Fits session
  | runs (call : Call) : F.Runs call session → Fits session

structure Good (state : State Db Write Lock Call α n) : Prop where
  inv : F.inv state.db
  fits : ∀ process, F.Fits (state.session process)

/-- What a commit must keep. -/
def Keeps (state : State Db Write Lock Call α n)
    (action : Action Write Call n) :
    Prop :=
  ∀ process call, System.committing state action = some (process, call) →
    (∀ write ∈ (state.session process).state.pending, F.emits call write) →
    F.inv (sys.schema.applyAll (state.session process).state.pending state.db)

variable {F} {state next : State Db Write Lock Call α n}
variable {action : Action Write Call n}

theorem inv_applyAll {writes : List Write} {db : Db} (inv : F.inv db)
    (drifts : ∀ write ∈ writes, F.drifts write) :
    F.inv (sys.schema.applyAll writes db) := by
  induction writes generalizing db with
  | nil => exact inv
  | cons write writes ih =>
      rw [Schema.applyAll_cons]
      exact ih (F.drifting db write (drifts write (by simp)) inv)
        fun later member => drifts later (by simp [member])

theorem Runs.sees {call : Call} {session : Session Db Write Lock Call α}
    {db : Db} (runs : F.Runs call session) (inv : F.inv db) :
    F.sees call (sys.view db session.state) :=
  F.seen call db session.state.pending inv runs.pending

theorem Good.replace {process : Fin n} {db : Db}
    {session : Session Db Write Lock Call α}
    {journal : List (Call × List Write)} (good : F.Good state)
    (inv : F.inv db) (fits : F.Fits session) :
    F.Good (State.replace { state with db, journal } process session) where
  inv := inv
  fits := by
    intro other
    by_cases same : other = process
    · subst same
      simpa [State.replace] using fits
    · simpa [State.replace, same] using good.fits other

/-- One step of a session that runs a call. -/
theorem Good.advance {process : Fin n} {call : Call} (good : F.Good state)
    (runs : F.Runs call (state.session process))
    (keeps : F.Keeps state (.step process))
    (taken : sys.advance state process = some next) : F.Good next := by
  have body := runs.prog
  simp only [System.advance] at taken
  split at taken
  · cases taken
  · cases taken
  · rename_i β read remark rest isQuery
    cases taken
    rw [isQuery] at body
    exact good.replace good.inv
      (.runs call ⟨runs.isCall, body _ (runs.sees good.inv), runs.pending,
        runs.snapshot⟩)
  · rename_i β statement rest isExec
    rw [isExec] at body
    split at taken
    · cases taken
      refine good.replace good.inv (.runs call ⟨runs.isCall, ?_,
        runs.pending, ?_⟩)
      · simpa only [isExec] using body
      · intro snapshot isSnapshot
        cases isSnapshot
        exact runs.sees good.inv
    · rename_i snapshot isSnapshot
      split at taken
      · cases taken
      · rename_i effect ran
        split at taken
        · cases taken
        · cases taken
          obtain ⟨writes, atOnce, rest⟩ := body snapshot _ _ effect
            (runs.snapshot snapshot isSnapshot) (runs.sees good.inv) ran
          refine good.replace (inv_applyAll good.inv atOnce)
            (.runs call ⟨runs.isCall, rest, ?_, ?_⟩)
          · intro write member
            rcases List.mem_append.mp member with earlier | fresh
            · exact runs.pending write earlier
            · exact writes write fresh
          · intro snapshot isSnapshot
            cases isSnapshot
  · rename_i rest isCommit
    cases taken
    rw [isCommit] at body
    refine good.replace ?_ (.runs call ⟨runs.isCall, body, ?_,
      runs.snapshot⟩)
    · exact keeps process call
        (by simp [System.committing, isCommit, runs.isCall]) runs.pending
    · intro write member
      cases member
  · rename_i rest isRollback
    cases taken
    rw [isRollback] at body
    refine good.replace good.inv (.runs call ⟨runs.isCall, body, ?_,
      runs.snapshot⟩)
    intro write member
    cases member

theorem Good.act (good : F.Good state)
    (starts : ∀ process call, action = .start process call → F.made call)
    (keeps : F.Keeps state action) (taken : sys.act state action = some next) :
    F.Good next := by
  cases action with
  | start process call =>
      simp only [System.act] at taken
      split at taken
      · cases taken
        refine good.replace good.inv (.runs call ⟨rfl,
          F.bodies call (starts process call rfl), ?_, ?_⟩)
        · intro write member
          cases member
        · intro snapshot isSnapshot
          cases isSnapshot
      · cases taken
  | step process =>
      simp only [System.act] at taken
      cases good.fits process with
      | unused stopped =>
          simp [System.advance, stopped] at taken
      | runs call runs => exact good.advance runs keeps taken
  | crash process =>
      cases taken
      refine good.replace good.inv ?_
      cases good.fits process with
      | unused => exact .unused rfl rfl rfl
      | runs call runs =>
          refine .runs call ⟨runs.isCall, trivial, ?_, ?_⟩
          · intro write member
            cases member
          · intro snapshot isSnapshot
            cases isSnapshot
  | ambient write =>
      simp only [System.act] at taken
      split at taken
      · rename_i isAmbient
        cases taken
        exact ⟨F.drifting _ _ (F.ambient write isAmbient) good.inv, good.fits⟩
      · cases taken

theorem good_initial {db : Db} (inv : F.inv db) :
    F.Good (System.initial db : State Db Write Lock Call α n) :=
  ⟨inv, fun _ => .unused rfl rfl rfl⟩

/-- What a session commits is in the footprint of its call. -/
theorem Good.emitted (good : F.Good state) {process : Fin n} {call : Call}
    (committing : System.committing state action = some (process, call)) :
    ∀ write ∈ (state.session process).state.pending, F.emits call write := by
  cases action with
  | step committer =>
      simp only [System.committing] at committing
      split at committing
      · rename_i rest isCommit
        obtain ⟨made, isCall, same⟩ := Option.map_eq_some_iff.mp committing
        cases same
        cases good.fits process with
        | unused stopped =>
            rw [isCommit] at stopped
            cases stopped
        | runs call runs =>
            have sameCall := runs.isCall
            rw [isCall] at sameCall
            cases sameCall
            exact runs.pending
      · cases committing
  | _ => cases committing

/-- The invariant of a footprint holds in every state that is reached by
commits that keep it. -/
theorem reached {db : Db}
    {allowed : State Db Write Lock Call α n → Action Write Call n → Prop}
    (starts : ∀ state process call, allowed state (.start process call) →
      F.made call)
    (keeps : ∀ state action, F.inv state.db → allowed state action →
      F.Keeps state action)
    (inv : F.inv db)
    (reaches : sys.Reaches allowed (System.initial db) state) :
    F.Good state := by
  induction reaches with
  | refl => exact good_initial inv
  | step _ permitted taken ih =>
      apply ih.act _ (keeps _ _ ih.inv permitted) taken
      intro process call isStart
      subst isStart
      exact starts _ process call permitted

end Footprint

/-! ## Values a footprint knows -/

namespace Setting

variable {C : Setting Db Write Lock Call α} {ε β : Type}

theorem Safe.values {call : Call} {γ : Type}
    {ending : γ → Db → Local Write Lock → Prop} {values : γ → Prop}
    {program : Prog Db Write Lock γ}
    (known : program.Emits (fun _ => True) (fun _ => True) (fun _ => True)
      values) {db : Db} {local_ : Local Write Lock}
    (safe : C.Safe call ending program db local_) :
    C.Safe call (fun value db state => ending value db state ∧ values value)
      program db local_ := by
  induction program generalizing db local_ with
  | done value => exact fun after env still => ⟨safe after env still, known⟩
  | halt => trivial
  | query read remark tail ih =>
      intro after env still
      have step := safe after env still
      exact ⟨step.1, ih _ (known _ trivial) step.2⟩
  | exec statement tail ih =>
      intro snapshot current env fine later still others effect ran
      have step := safe snapshot current env fine later still others effect
        ran
      have emits := known _ _ others effect trivial trivial ran
      exact ⟨step.1, ih _ emits.2.2 step.2⟩
  | commit tail ih =>
      intro after env still
      have step := safe after env still
      exact ⟨step.1, ih known step.2⟩
  | rollback tail ih =>
      exact fun after env still => ih known (safe after env still)

/-- A specification and what the script's result is by its text. -/
theorem Spec.values {call : Call} {pre fails : Db → Local Write Lock → Prop}
    {ending : β → Db → Local Write Lock → Prop} {values : β → Prop}
    {script : Script Db Write Lock ε β}
    (known : script.EmitsWith (fun _ => True) (fun _ => True) (fun _ => True)
      values)
    (spec : C.Spec call pre script ending fails) :
    C.Spec call pre script
      (fun value db state => ending value db state ∧ values value) fails := by
  intro db state good guarded holds
  refine Safe.mono ?_ (Safe.values known (spec db state good guarded holds))
  intro result db state _ both
  cases result with
  | ok value => exact both
  | error exception => exact both.1

end Setting

end Sqlery.ReadCommitted
