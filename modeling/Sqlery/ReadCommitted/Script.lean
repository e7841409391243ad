import Sqlery.ReadCommitted.Logic

/-!
# Programs that raise

Application code runs its statements inside a session that rolls back what was
not committed, and exceptions end a session early.  A script is a program with
exceptions; `Spec` is its judgement, with one assertion for a normal return and
one for an exception.
-/

namespace Sqlery.ReadCommitted

abbrev Script (Db Write Lock ε α : Type) : Type 1 :=
  ExceptT ε (Prog Db Write Lock) α

namespace Script

variable {Db Write Lock ε α : Type}

/-- A query that leaves a remark on what it found. -/
def observe (query : Db → α) (remark : α → List Write) :
    Script Db Write Lock ε α :=
  ExceptT.mk (.query query remark fun value => .done (.ok value))

def read (query : Db → α) : Script Db Write Lock ε α :=
  observe query fun _ => []

def exec (statement : Statement Db Write Lock α) :
    Script Db Write Lock ε α :=
  ExceptT.mk (.exec statement fun value => .done (.ok value))

def commit : Script Db Write Lock ε Unit :=
  ExceptT.mk (.commit (.done (.ok ())))

def rollback : Script Db Write Lock ε Unit :=
  ExceptT.mk (.rollback (.done (.ok ())))

/-- A loop that never ends. -/
def diverge : Script Db Write Lock ε α := ExceptT.mk .halt

def raise (exception : ε) : Script Db Write Lock ε α :=
  ExceptT.mk (.done (.error exception))

/-- A session: what its body did not commit is lost when it ends. -/
def session (body : Script Db Write Lock ε α) : Script Db Write Lock ε α :=
  ExceptT.mk (body.run.bind fun result => .rollback (.done result))

/-- Run the body for its effect and drop its result and its exceptions. -/
def quietly (body : Script Db Write Lock ε α) : Script Db Write Lock ε Unit :=
  ExceptT.mk (body.run.bind fun _ => .done (.ok ()))

/-- Run the body only if the condition holds. -/
def whenever (condition : Bool) (body : Script Db Write Lock ε Unit) :
    Script Db Write Lock ε Unit :=
  if condition then body else pure ()

/-- Run the body for every element, in order. -/
def each {γ : Type} (body : γ → Script Db Write Lock ε Unit) :
    List γ → Script Db Write Lock ε Unit
  | [] => pure ()
  | element :: rest => do
      body element
      each body rest

/-- The script stays inside one transaction. -/
def Within (script : Script Db Write Lock ε α) : Prop :=
  Prog.Within script.run

theorem Within.pure (value : α) :
    Within (pure value : Script Db Write Lock ε α) := trivial

theorem Within.raise (exception : ε) :
    Within (raise exception : Script Db Write Lock ε α) := trivial

theorem Within.read (query : Db → α) :
    Within (read query : Script Db Write Lock ε α) :=
  fun _ => trivial

theorem Within.exec (statement : Statement Db Write Lock α) :
    Within (exec statement : Script Db Write Lock ε α) :=
  fun _ => trivial

theorem Within.bind {β : Type} {first : Script Db Write Lock ε β}
    {next : β → Script Db Write Lock ε α} (begins : Within first)
    (rest : ∀ value, Within (next value)) : Within (first >>= next) := by
  apply Prog.Within.bind begins
  intro result
  cases result with
  | ok value => exact rest value
  | error exception => trivial

/-! ## Reading data that stand still -/

/-- What a program that only reads returns on the data of one moment. -/
def answerOf {β : Type} (db : Db) : Prog Db Write Lock β → Option β
  | .done value => some value
  | .halt => none
  | .query read _ next => answerOf db (next (read db))
  | .exec _ _ => none
  | .commit _ => none
  | .rollback next => answerOf db next

theorem answerOf_bind {β γ : Type} (db : Db) (program : Prog Db Write Lock β)
    (next : β → Prog Db Write Lock γ) :
    answerOf db (program.bind next) =
      (answerOf db program).bind fun value => answerOf db (next value) := by
  induction program with
  | done value => rfl
  | halt => rfl
  | query read remark rest ih => exact ih (read db)
  | exec statement rest => rfl
  | commit rest => rfl
  | rollback rest ih => exact ih

def answer (db : Db) (script : Script Db Write Lock ε α) :
    Option (Except ε α) :=
  answerOf db script.run

@[simp] theorem answer_pure (db : Db) (value : α) :
    answer db (Pure.pure value : Script Db Write Lock ε α) =
      some (.ok value) := rfl

@[simp] theorem answer_observe (db : Db) (query : Db → α)
    (remark : α → List Write) :
    answer db (observe query remark : Script Db Write Lock ε α) =
      some (.ok (query db)) := rfl

@[simp] theorem answer_read (db : Db) (query : Db → α) :
    answer db (read query : Script Db Write Lock ε α) =
      some (.ok (query db)) := rfl

/-- A script goes on with the answer of its first part. -/
theorem answer_bind {β : Type} {db : Db} {value : β}
    {first : Script Db Write Lock ε β} (next : β → Script Db Write Lock ε α)
    (answers : answer db first = some (.ok value)) :
    answer db (first >>= next) = answer db (next value) := by
  have bound := answerOf_bind db first.run
    (ExceptT.bindCont next)
  rw [show answerOf db first.run = some (.ok value) from answers] at bound
  exact bound

@[simp] theorem answer_session (db : Db)
    (body : Script Db Write Lock ε α) :
    answer db (session body) = answer db body := by
  have bound := answerOf_bind db body.run
    (fun result => Prog.rollback (Prog.done result))
  change answerOf db (body.run.bind fun result =>
    Prog.rollback (Prog.done result)) = answerOf db body.run
  rw [bound]
  cases answerOf db body.run <;> rfl

end Script

namespace Setting

variable {Db Write Lock Call α ε β γ : Type}
variable {C : Setting Db Write Lock Call α} {call : Call}

variable (C) in
/-- From `pre` the script returns only in states that satisfy `post` and raises
only in states that satisfy `fails`. -/
def Spec (call : Call) (pre : Db → Local Write Lock → Prop)
    (script : Script Db Write Lock ε β)
    (post : β → Db → Local Write Lock → Prop)
    (fails : Db → Local Write Lock → Prop) : Prop :=
  C.Triple call pre script.run fun result =>
    match result with
    | .ok value => post value
    | .error _ => fails

namespace Spec

variable {pre fails : Db → Local Write Lock → Prop}
variable {post : β → Db → Local Write Lock → Prop}

theorem weaken {stronger : Db → Local Write Lock → Prop}
    {script : Script Db Write Lock ε β}
    (spec : C.Spec call pre script post fails)
    (implies : ∀ db state, C.inv db → stronger db state → pre db state) :
    C.Spec call stronger script post fails :=
  Triple.weaken spec implies

/-- What two specifications say of the same script. -/
theorem and {other : Db → Local Write Lock → Prop}
    {left : β → Db → Local Write Lock → Prop}
    {script : Script Db Write Lock ε β}
    (first : C.Spec call pre script post fails)
    (second : C.Spec call other script left fails) :
    C.Spec call (fun db state => pre db state ∧ other db state) script
      (fun value db state => post value db state ∧ left value db state)
      fails := by
  intro db state good guarded holds
  refine Safe.mono ?_ (Safe.and (first db state good guarded holds.1)
    (second db state good guarded holds.2))
  intro result db state _ both
  cases result with
  | ok value => exact both
  | error exception => exact both.1

theorem strengthen {script : Script Db Write Lock ε β}
    {stronger : β → Db → Local Write Lock → Prop}
    {strongerFails : Db → Local Write Lock → Prop}
    (spec : C.Spec call pre script stronger strongerFails)
    (implies : ∀ value db state, C.inv db → stronger value db state →
      post value db state)
    (impliesFails : ∀ db state, C.inv db → strongerFails db state →
      fails db state) :
    C.Spec call pre script post fails := by
  intro db state good guarded holds
  refine Safe.mono ?_ (spec db state good guarded holds)
  intro result
  cases result with
  | ok value => exact implies value
  | error exception => exact impliesFails

/-- Whatever the script does, a lasting fact is still there. -/
theorem frame {fact : Db → Prop} (lasting : C.Lasting fact)
    {script : Script Db Write Lock ε β}
    (spec : C.Spec call pre script post fails) :
    C.Spec call (fun db state => pre db state ∧ fact db) script
      (fun value db state => post value db state ∧ fact db) fails := by
  rintro db state good guarded ⟨before, holds⟩
  refine Safe.mono ?_ (Safe.frame lasting guarded
    (spec db state good guarded before) holds)
  rintro result db state _ ⟨returned, still⟩
  cases result with
  | ok value => exact ⟨returned, still⟩
  | error exception => exact returned

/-- An assertion kept inside a transaction is still there after a part of
it. -/
theorem keep {known : Db → Local Write Lock → Prop}
    (kept : C.Kept call known) {script : Script Db Write Lock ε β}
    (within : script.Within)
    (spec : C.Spec call pre script post fails) :
    C.Spec call (fun db state => pre db state ∧ known db state) script
      (fun value db state => post value db state ∧ known db state) fails := by
  rintro db state good guarded ⟨before, holds⟩
  refine Safe.mono ?_ (Safe.keep kept within good guarded
    (spec db state good guarded before) holds)
  rintro result db state _ ⟨returned, still⟩
  cases result with
  | ok value => exact ⟨returned, still⟩
  | error exception => exact returned

theorem pure {value : β} (stable : C.Stable pre)
    (holds : ∀ db state, C.inv db → Guarded C.sys.schema state →
      pre db state → post value db state) :
    C.Spec call pre (pure value : Script Db Write Lock ε β) post fails :=
  Triple.done stable holds

/-- A return changes nothing. -/
theorem skip {value : β} (stable : C.Stable pre) :
    C.Spec call pre (Pure.pure value : Script Db Write Lock ε β)
      (fun _ => pre) fails :=
  pure stable fun _ _ _ _ holds => holds

theorem bind {middle : γ → Db → Local Write Lock → Prop}
    {first : Script Db Write Lock ε γ} {next : γ → Script Db Write Lock ε β}
    (stable : C.Stable fails)
    (begins : C.Spec call pre first middle fails)
    (rest : ∀ value, C.Spec call (middle value) (next value) post fails) :
    C.Spec call pre (first >>= next) post fails := by
  refine Triple.bind begins fun result => ?_
  cases result with
  | ok value => exact rest value
  | error exception =>
      exact Triple.done stable fun _ _ _ _ holds => holds

/-- A program whose result a script goes on with. -/
theorem bind_ {middle : γ → Db → Local Write Lock → Prop}
    {first : Prog Db Write Lock γ}
    {next : γ → Prog Db Write Lock (Except ε β)}
    (begins : C.Triple call pre first middle)
    (rest : ∀ value, C.Triple call (middle value) (next value) fun result =>
      match result with
      | .ok value => post value
      | .error _ => fails) :
    C.Spec call pre (ExceptT.mk (first.bind next)) post fails :=
  Triple.bind begins rest

theorem map {first : Script Db Write Lock ε γ} {result : γ → β}
    (spec : C.Spec call pre first (fun value => post (result value)) fails)
    (stable : ∀ value, C.Stable (post (result value)))
    (stableFails : C.Stable fails) :
    C.Spec call pre (result <$> first) post fails := by
  refine Triple.bind spec fun returned => ?_
  cases returned with
  | ok value => exact Triple.done (stable value) fun _ _ _ _ holds => holds
  | error exception => exact Triple.done stableFails fun _ _ _ _ holds => holds

theorem observe {query : Db → β} {remark : β → List Write}
    (stable : C.Stable pre) (stablePost : ∀ value, C.Stable (post value))
    (reads : ∀ db state, C.inv db → Guarded C.sys.schema state →
      pre db state →
      (C.promise call).notes db state
          (remark (query (C.sys.view db state))) ∧
        post (query (C.sys.view db state)) db
          (state.note (remark (query (C.sys.view db state))))) :
    C.Spec call pre
      (Script.observe query remark : Script Db Write Lock ε β) post fails :=
  Triple.query stable reads fun value =>
    Triple.done (stablePost value) fun _ _ _ _ holds => holds

theorem exec {statement : Statement Db Write Lock β}
    (stable : C.Stable pre) (stablePost : ∀ value, C.Stable (post value))
    (effects : ∀ snapshot current state others effect,
      C.inv snapshot → C.inv current → Guarded C.sys.schema state →
      C.Env state.held snapshot current →
      pre snapshot state → pre current state →
      statement (C.sys.view snapshot state) (C.sys.view current state)
        others = some effect →
      (C.promise call).instant current
          (state.extend effect.writes (C.sys.acquired effect))
          effect.atOnce ∧
        post effect.result
          (C.sys.schema.applyAll effect.atOnce current)
          (state.extend effect.writes (C.sys.acquired effect))) :
    C.Spec call pre
      (Script.exec statement : Script Db Write Lock ε β) post fails :=
  Triple.exec stable effects fun value =>
    Triple.done (stablePost value) fun _ _ _ _ holds => holds

theorem commit {after : Unit → Db → Local Write Lock → Prop}
    (stable : C.Stable pre) (stablePost : C.Stable (after ()))
    (keeps : ∀ db state, C.inv db → Guarded C.sys.schema state →
      pre db state →
      (C.promise call).commits db state ∧
        after () (C.sys.schema.applyAll state.pending db) state.committed) :
    C.Spec call pre (Script.commit : Script Db Write Lock ε Unit) after
      fails :=
  Triple.commit stable keeps (Triple.done stablePost fun _ _ _ _ holds => holds)

theorem rollback {after : Unit → Db → Local Write Lock → Prop}
    (stable : C.Stable pre) (stablePost : C.Stable (after ()))
    (keeps : ∀ db state, C.inv db → pre db state →
      after () db state.rolledBack) :
    C.Spec call pre (Script.rollback : Script Db Write Lock ε Unit) after
      fails :=
  Triple.rollback stable keeps
    (Triple.done stablePost fun _ _ _ _ holds => holds)

theorem diverge :
    C.Spec call pre (Script.diverge : Script Db Write Lock ε β) post fails :=
  Triple.halt

theorem raise {exception : ε} (stable : C.Stable pre)
    (holds : ∀ db state, C.inv db → pre db state → fails db state) :
    C.Spec call pre
      (Script.raise exception : Script Db Write Lock ε β) post fails :=
  Triple.done stable fun db state good _ before => holds db state good before

/-- The body may leave anything pending that a rollback can undo. -/
theorem session {body : Script Db Write Lock ε β}
    {inner : β → Db → Local Write Lock → Prop}
    {innerFails : Db → Local Write Lock → Prop}
    (spec : C.Spec call pre body inner innerFails)
    (stableInner : ∀ value, C.Stable (inner value))
    (stableInnerFails : C.Stable innerFails)
    (stablePost : ∀ value, C.Stable (post value))
    (stableFails : C.Stable fails)
    (undone : ∀ value db state, C.inv db → inner value db state →
      post value db state.rolledBack)
    (undoneFails : ∀ db state, C.inv db → innerFails db state →
      fails db state.rolledBack) :
    C.Spec call pre (Script.session body) post fails := by
  refine Triple.bind spec fun result => ?_
  cases result with
  | ok value =>
      exact Triple.rollback (stableInner value) (undone value)
        (Triple.done (stablePost value) fun _ _ _ _ holds => holds)
  | error exception =>
      exact Triple.rollback stableInnerFails undoneFails
        (Triple.done stableFails fun _ _ _ _ holds => holds)

theorem quietly {body : Script Db Write Lock ε β}
    {after : Unit → Db → Local Write Lock → Prop}
    (spec : C.Spec call pre body (fun _ => after ()) (after ()))
    (stable : C.Stable (after ())) :
    C.Spec call pre (Script.quietly body) after fails := by
  refine Triple.bind spec fun result => ?_
  cases result <;> exact Triple.done stable fun _ _ _ _ holds => holds

/-- What is known of some value is known in the rest for that value. -/
theorem exists_ {δ : Type} {script : Script Db Write Lock ε β}
    {known : δ → Db → Local Write Lock → Prop}
    (spec : ∀ value, C.Spec call (known value) script post fails) :
    C.Spec call (fun db state => ∃ value, known value db state) script post
      fails := by
  rintro db state good guarded ⟨value, holds⟩
  exact spec value db state good guarded holds

/-- A fact known before a script may be used in its proof. -/
theorem fact {known : Prop} {script : Script Db Write Lock ε β}
    (spec : known → C.Spec call pre script post fails) :
    C.Spec call (fun db state => known ∧ pre db state) script post fails := by
  rintro db state good guarded ⟨holds, before⟩
  exact spec holds db state good guarded before

theorem whenever {condition : Bool} {body : Script Db Write Lock ε Unit}
    {after : Unit → Db → Local Write Lock → Prop}
    (spec : condition = true → C.Spec call pre body after fails)
    (stable : C.Stable pre)
    (skipped : ∀ db state, C.inv db → condition = false → pre db state →
      after () db state) :
    C.Spec call pre (Script.whenever condition body) after fails := by
  cases condition with
  | true => exact spec rfl
  | false =>
      exact Spec.pure stable fun db state good _ => skipped db state good rfl

/-- The loop rule: every round keeps `pre`. -/
theorem each {body : γ → Script Db Write Lock ε Unit} {elements : List γ}
    (stable : C.Stable pre) (stableFails : C.Stable fails)
    (round : ∀ element ∈ elements,
      C.Spec call pre (body element) (fun _ => pre) fails) :
    C.Spec call pre (Script.each body elements) (fun _ => pre) fails := by
  induction elements with
  | nil => exact Spec.pure stable fun _ _ _ _ holds => holds
  | cons element rest ih =>
      refine Spec.bind stableFails (round element (by simp)) fun _ => ih ?_
      intro later member
      exact round later (List.mem_cons_of_mem _ member)

end Spec

end Setting

end Sqlery.ReadCommitted
