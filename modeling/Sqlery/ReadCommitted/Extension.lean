import Sqlery.ReadCommitted.Watch

/-!
# More calls

A system may be given calls it did not have, over the same tables.  Each of
them promises at least what some known call promises; then the known calls
keep their triples, and a program that stays inside one transaction keeps the
triple it has under the known promise.
-/

namespace Sqlery.ReadCommitted

variable {Db Write Lock Call Call' α : Type}

namespace Setting

/-- The bodies of the calls of a larger system, a known call each of them is
like, and what they promise of their commits beyond that. -/
structure Extension (C : Setting Db Write Lock Call α) (Call' : Type) where
  body : Call' → Prog Db Write Lock α
  like : Call' → Call
  beyond : Call' → Db → Local Write Lock → Prop

namespace Extension

variable {C : Setting Db Write Lock Call α} (E : Extension C Call')

def sys : System Db Write Lock Call' α where
  schema := C.sys.schema
  body := E.body
  ambient := C.sys.ambient

def setting : Setting Db Write Lock Call' α where
  sys := E.sys
  inv := C.inv
  promise call := {
    commits := fun db state =>
      (C.promise (E.like call)).commits db state ∧ E.beyond call db state
    instant := (C.promise (E.like call)).instant
    notes := (C.promise (E.like call)).notes }
  commit_inv := fun call db state good guarded promised =>
    C.commit_inv (E.like call) db state good guarded promised.1
  instant_inv := fun call => C.instant_inv (E.like call)
  ambient_inv := C.ambient_inv

variable {E}

/-- What the other sessions do is what sessions of known calls may do. -/
theorem env {held : List Lock} {first second : Db}
    (changed : E.setting.Env held first second) : C.Env held first second := by
  induction changed with
  | refl => exact .refl _
  | commit _ good guarded promised apart ih =>
      exact .commit ih good guarded promised.1 apart
  | instant _ good promised apart ih => exact .instant ih good promised apart
  | ambient _ good moves ih => exact .ambient ih good moves

theorem stable {assertion : Db → Local Write Lock → Prop}
    (stable : C.Stable assertion) : E.setting.Stable assertion :=
  fun first second state changed => stable first second state (env changed)

/-- What nobody undoes in the known system nobody undoes here. -/
theorem lasting {fact : Db → Prop} (lasting : C.Lasting fact) :
    E.setting.Lasting fact where
  commits := fun call db state good guarded promised =>
    lasting.commits (E.like call) db state good guarded promised.1
  instant := fun call => lasting.instant (E.like call)
  ambient := lasting.ambient

variable {call : Call'}

/-- A known call keeps its triple. -/
theorem safe {β : Type} {post : β → Db → Local Write Lock → Prop}
    {program : Prog Db Write Lock β} {db : Db} {state : Local Write Lock}
    (nothing : ∀ db state, E.beyond call db state)
    (safe : C.Safe (E.like call) post program db state) :
    E.setting.Safe call post program db state := by
  induction program generalizing db state with
  | done value => exact fun after changed => safe after (env changed)
  | halt => trivial
  | query read remark tail ih =>
      intro after changed good
      have step := safe after (env changed) good
      exact ⟨step.1, ih _ step.2⟩
  | exec statement tail ih =>
      intro snapshot current earlier fine later good others effect ran
      have step := safe snapshot current (env earlier) fine (env later) good
        others effect ran
      exact ⟨step.1, ih _ step.2⟩
  | commit tail ih =>
      intro after changed good
      have step := safe after (env changed) good
      exact ⟨⟨step.1, nothing _ _⟩, ih step.2⟩
  | rollback tail ih =>
      exact fun after changed good => ih (safe after (env changed) good)

/-- Inside a transaction nothing more is promised. -/
theorem safe_within {β : Type} {post : β → Db → Local Write Lock → Prop}
    {program : Prog Db Write Lock β} {db : Db} {state : Local Write Lock}
    (within : program.Within)
    (safe : C.Safe (E.like call) post program db state) :
    E.setting.Safe call post program db state := by
  induction program generalizing db state with
  | done value => exact fun after changed => safe after (env changed)
  | halt => trivial
  | query read remark tail ih =>
      intro after changed good
      have step := safe after (env changed) good
      exact ⟨step.1, ih _ (within _) step.2⟩
  | exec statement tail ih =>
      intro snapshot current earlier fine later good others effect ran
      have step := safe snapshot current (env earlier) fine (env later) good
        others effect ran
      exact ⟨step.1, ih _ (within _) step.2⟩
  | commit tail => exact within.elim
  | rollback tail => exact within.elim

/-- A specification of the known call is one of the call like it. -/
theorem spec {ε β : Type} {pre fails : Db → Local Write Lock → Prop}
    {post : β → Db → Local Write Lock → Prop}
    {script : Script Db Write Lock ε β}
    (nothing : ∀ db state, E.beyond call db state)
    (spec : C.Spec (E.like call) pre script post fails) :
    E.setting.Spec call pre script post fails :=
  fun db state good guarded holds =>
    E.safe nothing (spec db state good guarded holds)

/-- What a session of the known system ends with it ends with here. -/
theorem ends {β : Type} {terms : Terms Db Write Lock}
    {post : β → Db → Local Write Lock → Prop}
    {program : Prog Db Write Lock β} {db : Db} {state : Local Write Lock}
    (ends : C.Ends terms post program db state) :
    E.setting.Ends terms post program db state := by
  have mild : ∀ {held : List Lock} {first second : Db},
      E.setting.Mild terms held first second → C.Mild terms held first second :=
    fun changed => ⟨env changed.env, changed.kept,
      ⟨changed.fine.inv, changed.fine.always⟩⟩
  induction program generalizing db state with
  | done value => exact fun after changed => ends after (mild changed)
  | halt => trivial
  | query read remark tail ih =>
      exact fun after changed => ih _ (ends after (mild changed))
  | exec statement tail ih =>
      intro snapshot current earlier later others effect ran still
      exact ih _ (ends snapshot current (mild earlier) (mild later) others
        effect ran ⟨still.inv, still.always⟩)
  | commit tail ih =>
      intro after changed
      obtain ⟨vowed, goesOn⟩ := ends after (mild changed)
      exact ⟨vowed, fun still => ih (goesOn ⟨still.inv, still.always⟩)⟩
  | rollback tail ih =>
      exact fun after changed => ih (ends after (mild changed))

/-- What a known call sees to before its commits may be promised as well. -/
theorem safe_of_ends {β : Type} {terms : Terms Db Write Lock}
    {post left : β → Db → Local Write Lock → Prop}
    {program : Prog Db Write Lock β} {db : Db} {state : Local Write Lock}
    (anytime : ∀ db, terms.always db)
    (anything : ∀ first second, terms.keeps first second)
    (vowed : ∀ db state, terms.vow db state → E.beyond call db state)
    (guarded : Guarded C.sys.schema state)
    (ends : C.Ends terms left program db state)
    (safe : C.Safe (E.like call) post program db state) :
    E.setting.Safe call post program db state := by
  have mild : ∀ {held : List Lock} {first second : Db},
      E.setting.Env held first second → C.inv second →
      C.Mild terms held first second := fun changed good =>
    ⟨env changed, anything _ _, good, anytime _⟩
  induction program generalizing db state with
  | done value => exact fun after changed => safe after (env changed)
  | halt => trivial
  | query read remark tail ih =>
      intro after changed good
      have step := safe after (env changed) good
      exact ⟨step.1, ih _ guarded (ends after (mild changed good)) step.2⟩
  | exec statement tail ih =>
      intro snapshot current earlier fine later good others effect ran
      have step := safe snapshot current (env earlier) fine (env later) good
        others effect ran
      have still := C.instant_inv _ _ _ _ good step.1
      exact ⟨step.1, ih _ (guarded_acquired guarded effect)
        (ends snapshot current (mild earlier fine) (mild later good) others
          effect ran ⟨still, anytime _⟩) step.2⟩
  | commit tail ih =>
      intro after changed good
      have step := safe after (env changed) good
      obtain ⟨vow, goesOn⟩ := ends after (mild changed good)
      have still := C.commit_inv _ _ _ good guarded step.1
      exact ⟨⟨step.1, vowed after state vow⟩,
        ih (guarded_committed state) (goesOn ⟨still, anytime _⟩) step.2⟩
  | rollback tail ih =>
      intro after changed good
      exact ih (guarded_rolledBack state) (ends after (mild changed good))
        (safe after (env changed) good)

theorem spec_within {ε β : Type} {pre fails : Db → Local Write Lock → Prop}
    {post : β → Db → Local Write Lock → Prop}
    {script : Script Db Write Lock ε β} (within : script.Within)
    (spec : C.Spec (E.like call) pre script post fails) :
    E.setting.Spec call pre script post fails :=
  fun db state good guarded holds =>
    safe_within within (spec db state good guarded holds)

end Extension

end Setting

end Sqlery.ReadCommitted
