import Sqlery.ReadCommitted.Script
import Sqlery.ReadCommitted.Steps

/-!
# What one call ends with

The judgement of this file is about a single session.  It promises nothing, and
in return it may rely on more than the promises of the others: that every step
they take while the call is under way keeps a relation between the data before
and after it.  What a call promises in any case carries over.
-/

namespace Sqlery.ReadCommitted

/-- The session an action is of. -/
def Action.actor {Write Call : Type} {n : Nat} :
    Action Write Call n → Option (Fin n)
  | .start process _ => some process
  | .step process => some process
  | .crash process => some process
  | .ambient _ => none

/-- A step stays inside its call. -/
theorem System.call_of_advance {Db Write Lock Call α : Type} {n : Nat}
    {sys : System Db Write Lock Call α}
    {state next : State Db Write Lock Call α n} {process : Fin n}
    (taken : sys.advance state process = some next) :
    (next.session process).call = (state.session process).call := by
  unfold System.advance at taken
  simp only at taken
  split at taken
  · cases taken
  · cases taken
  · cases taken
    simp [State.replace]
  · split at taken
    · cases taken
      simp [State.replace]
    · split at taken
      · cases taken
      · split at taken
        · cases taken
        · cases taken
          simp [State.replace]
  · cases taken
    simp [State.replace]
  · cases taken
    simp [State.replace]

/-- The terms on which a session is watched. -/
structure Terms (Db Write Lock : Type) where
  /-- What holds of the data at any time. -/
  always : Db → Prop := fun _ => True
  /-- What the steps of the others keep. -/
  keeps : Db → Db → Prop
  /-- What the session sees to before it commits. -/
  vow : Db → Local Write Lock → Prop := fun _ _ => True

/-- The session that commits is at a commit of its call. -/
theorem System.commit_of_committing {Db Write Lock Call α : Type} {n : Nat}
    {state : State Db Write Lock Call α n} {action : Action Write Call n}
    {process : Fin n} {call : Call}
    (committing : System.committing state action = some (process, call)) :
    ∃ rest, (state.session process).prog = .commit rest ∧
      (state.session process).call = some call := by
  cases action with
  | step actor =>
      simp only [System.committing] at committing
      split at committing
      · rename_i rest isCommit
        obtain ⟨found, isCall, same⟩ := Option.map_eq_some_iff.mp committing
        cases same
        exact ⟨rest, isCommit, isCall⟩
      · cases committing
  | start actor started => cases committing
  | crash actor => cases committing
  | ambient write => cases committing

namespace Setting

variable {Db Write Lock Call α β γ ε : Type}
variable (C : Setting Db Write Lock Call α)

/-- The data at any time of the run. -/
structure Fine (terms : Terms Db Write Lock) (db : Db) : Prop where
  inv : C.inv db
  always : terms.always db

/-- What the others do, when each of their steps keeps the relation. -/
structure Mild (terms : Terms Db Write Lock) (held : List Lock)
    (first second : Db) : Prop where
  env : C.Env held first second
  kept : terms.keeps first second
  fine : C.Fine terms second

/-- A call ends only in states that satisfy `post`, if the others keep the
relation. -/
def Ends (terms : Terms Db Write Lock)
    (post : β → Db → Local Write Lock → Prop) :
    Prog Db Write Lock β → Db → Local Write Lock → Prop
  | .done value, db, state =>
      ∀ after, C.Mild terms state.held db after → post value after state
  | .halt, _, _ => True
  | .query read remark next, db, state =>
      ∀ after, C.Mild terms state.held db after →
        Ends terms post (next (read (C.sys.view after state))) after
          (state.note (remark (read (C.sys.view after state))))
  | .exec statement next, db, state =>
      ∀ snapshot current, C.Mild terms state.held db snapshot →
        C.Mild terms state.held snapshot current → ∀ others effect,
          statement (C.sys.view snapshot state) (C.sys.view current state)
            others = some effect →
          C.Fine terms (C.sys.schema.applyAll effect.atOnce current) →
          Ends terms post (next effect.result)
            (C.sys.schema.applyAll effect.atOnce current)
            (state.extend effect.writes (C.sys.acquired effect))
  | .commit next, db, state =>
      ∀ after, C.Mild terms state.held db after →
        terms.vow after state ∧
          (C.Fine terms (C.sys.schema.applyAll state.pending after) →
            Ends terms post next (C.sys.schema.applyAll state.pending after)
              state.committed)
  | .rollback next, db, state =>
      ∀ after, C.Mild terms state.held db after →
        Ends terms post next after state.rolledBack

/-- A relation that holds of a sequence of steps if it holds of each. -/
structure Chains (terms : Terms Db Write Lock) : Prop where
  refl : ∀ db, terms.keeps db db
  trans : ∀ first second third, terms.keeps first second →
    terms.keeps second third → terms.keeps first third

variable {C} {terms : Terms Db Write Lock}

theorem Mild.refl (chains : Chains terms) {held : List Lock} {db : Db}
    (good : C.Fine terms db) : C.Mild terms held db db :=
  ⟨.refl db, chains.refl db, good⟩

theorem Mild.trans (chains : Chains terms) {held : List Lock}
    {first second third : Db} (left : C.Mild terms held first second)
    (right : C.Mild terms held second third) :
    C.Mild terms held first third :=
  ⟨left.env.trans right.env, chains.trans _ _ _ left.kept right.kept,
    right.fine⟩

theorem Ends.mild (chains : Chains terms)
    {post : β → Db → Local Write Lock → Prop} {program : Prog Db Write Lock β}
    {first second : Db} {state : Local Write Lock}
    (ends : C.Ends terms post program first state)
    (changed : C.Mild terms state.held first second) :
    C.Ends terms post program second state := by
  cases program with
  | done value => exact fun after mild => ends after (changed.trans chains mild)
  | halt => trivial
  | query read remark next =>
      exact fun after mild => ends after (changed.trans chains mild)
  | exec statement next =>
      exact fun snapshot current mild =>
        ends snapshot current (changed.trans chains mild)
  | commit next =>
      exact fun after mild => ends after (changed.trans chains mild)
  | rollback next =>
      exact fun after mild => ends after (changed.trans chains mild)

theorem Ends.bind {post : β → Db → Local Write Lock → Prop}
    {middle : γ → Db → Local Write Lock → Prop}
    {program : Prog Db Write Lock γ} {next : γ → Prog Db Write Lock β}
    (chains : Chains terms)
    (rest : ∀ value db state, C.Fine terms db → Guarded C.sys.schema state →
      middle value db state → C.Ends terms post (next value) db state)
    {db : Db} {state : Local Write Lock} (good : C.Fine terms db)
    (guarded : Guarded C.sys.schema state)
    (ends : C.Ends terms middle program db state) :
    C.Ends terms post (program.bind next) db state := by
  induction program generalizing db state with
  | done value =>
      exact rest value db state good guarded (ends db (.refl chains good))
  | halt => trivial
  | query read remark tail ih =>
      intro after mild
      exact ih _ mild.fine guarded (ends after mild)
  | exec statement tail ih =>
      intro snapshot current mild later others effect ran still
      exact ih _ still (guarded_acquired guarded effect)
        (ends snapshot current mild later others effect ran still)
  | commit tail ih =>
      intro after mild
      obtain ⟨vowed, goesOn⟩ := ends after mild
      exact ⟨vowed, fun still =>
        ih still (guarded_committed state) (goesOn still)⟩
  | rollback tail ih =>
      intro after mild
      exact ih mild.fine (guarded_rolledBack state) (ends after mild)

theorem Ends.mono {post weaker : β → Db → Local Write Lock → Prop}
    {program : Prog Db Write Lock β}
    (implies : ∀ value db state, C.Fine terms db → post value db state →
      weaker value db state) {db : Db} {state : Local Write Lock}
    (ends : C.Ends terms post program db state) :
    C.Ends terms weaker program db state := by
  induction program generalizing db state with
  | done value =>
      exact fun after mild => implies value after state mild.fine
        (ends after mild)
  | halt => trivial
  | query read remark tail ih => exact fun after mild => ih _ (ends after mild)
  | exec statement tail ih =>
      intro snapshot current mild later others effect ran still
      exact ih _ (ends snapshot current mild later others effect ran still)
  | commit tail ih =>
      intro after mild
      obtain ⟨vowed, goesOn⟩ := ends after mild
      exact ⟨vowed, fun still => ih (goesOn still)⟩
  | rollback tail ih => exact fun after mild => ih (ends after mild)

/-- What a program ends with in any case it ends with here. -/
theorem Ends.of_safe {call : Call}
    {post : β → Db → Local Write Lock → Prop} {program : Prog Db Write Lock β}
    (vowed : ∀ db state, C.Fine terms db → (C.promise call).commits db state →
      terms.vow db state) {db : Db} {state : Local Write Lock}
    (safe : C.Safe call post program db state) :
    C.Ends terms post program db state := by
  induction program generalizing db state with
  | done value => exact fun after mild => safe after mild.env mild.fine.inv
  | halt => trivial
  | query read remark tail ih =>
      exact fun after mild => ih _ (safe after mild.env mild.fine.inv).2
  | exec statement tail ih =>
      intro snapshot current mild later others effect ran _
      exact ih _ (safe snapshot current mild.env mild.fine.inv later.env
        later.fine.inv others effect ran).2
  | commit tail ih =>
      intro after mild
      have step := safe after mild.env mild.fine.inv
      exact ⟨vowed after state mild.fine step.1, fun _ => ih step.2⟩
  | rollback tail ih =>
      exact fun after mild => ih (safe after mild.env mild.fine.inv)

/-- Inside one transaction there is nothing to see to. -/
theorem Ends.of_within {call : Call}
    {post : β → Db → Local Write Lock → Prop} {program : Prog Db Write Lock β}
    (within : program.Within) {db : Db} {state : Local Write Lock}
    (safe : C.Safe call post program db state) :
    C.Ends terms post program db state := by
  induction program generalizing db state with
  | done value => exact fun after mild => safe after mild.env mild.fine.inv
  | halt => trivial
  | query read remark tail ih =>
      exact fun after mild =>
        ih _ (within _) (safe after mild.env mild.fine.inv).2
  | exec statement tail ih =>
      intro snapshot current mild later others effect ran _
      exact ih _ (within _) (safe snapshot current mild.env mild.fine.inv
        later.env later.fine.inv others effect ran).2
  | commit tail ih => exact within.elim
  | rollback tail ih => exact within.elim

theorem Ends.and {left right : β → Db → Local Write Lock → Prop}
    {program : Prog Db Write Lock β} {db : Db} {state : Local Write Lock}
    (first : C.Ends terms left program db state)
    (second : C.Ends terms right program db state) :
    C.Ends terms (fun value db state => left value db state ∧
      right value db state) program db state := by
  induction program generalizing db state with
  | done value => exact fun after mild => ⟨first after mild, second after mild⟩
  | halt => trivial
  | query read remark tail ih =>
      exact fun after mild => ih _ (first after mild) (second after mild)
  | exec statement tail ih =>
      intro snapshot current mild later others effect ran still
      exact ih _ (first snapshot current mild later others effect ran still)
        (second snapshot current mild later others effect ran still)
  | commit tail ih =>
      intro after mild
      obtain ⟨vowed, goesOn⟩ := first after mild
      exact ⟨vowed, fun still =>
        ih (goesOn still) ((second after mild).2 still)⟩
  | rollback tail ih =>
      exact fun after mild => ih (first after mild) (second after mild)

/-- What a session sees to on two counts. -/
theorem Ends.vows {left right : β → Db → Local Write Lock → Prop}
    {more : Db → Local Write Lock → Prop} {program : Prog Db Write Lock β}
    {db : Db} {state : Local Write Lock}
    (first : C.Ends terms left program db state)
    (second : C.Ends { terms with vow := more } right program db state) :
    C.Ends { terms with
      vow := fun db state => terms.vow db state ∧ more db state }
      left program db state := by
  have one : ∀ {held : List Lock} {before after : Db},
      C.Mild { terms with
        vow := fun db state => terms.vow db state ∧ more db state }
        held before after → C.Mild terms held before after :=
    fun mild => ⟨mild.env, mild.kept, mild.fine.inv, mild.fine.always⟩
  have two : ∀ {held : List Lock} {before after : Db},
      C.Mild { terms with
        vow := fun db state => terms.vow db state ∧ more db state }
        held before after →
      C.Mild { terms with vow := more } held before after :=
    fun mild => ⟨mild.env, mild.kept, mild.fine.inv, mild.fine.always⟩
  induction program generalizing db state with
  | done value => exact fun after mild => first after (one mild)
  | halt => trivial
  | query read remark tail ih =>
      exact fun after mild => ih _ (first after (one mild))
        (second after (two mild))
  | exec statement tail ih =>
      intro snapshot current mild later others effect ran still
      exact ih _ (first snapshot current (one mild) (one later) others effect
        ran ⟨still.inv, still.always⟩)
        (second snapshot current (two mild) (two later) others effect ran
          ⟨still.inv, still.always⟩)
  | commit tail ih =>
      intro after mild
      obtain ⟨vowed, goesOn⟩ := first after (one mild)
      obtain ⟨alsoVowed, alsoGoesOn⟩ := second after (two mild)
      exact ⟨⟨vowed, alsoVowed⟩, fun still =>
        ih (goesOn ⟨still.inv, still.always⟩)
          (alsoGoesOn ⟨still.inv, still.always⟩)⟩
  | rollback tail ih =>
      exact fun after mild => ih (first after (one mild))
        (second after (two mild))

/-! ## Scripts -/

variable (C) in
/-- An assertion that survives the steps of the others. -/
def Lasts (terms : Terms Db Write Lock)
    (assertion : Db → Local Write Lock → Prop) : Prop :=
  ∀ first second state, C.Mild terms state.held first second →
    C.Fine terms first → Guarded C.sys.schema state → assertion first state →
    assertion second state

theorem Stable.lasts {assertion : Db → Local Write Lock → Prop}
    (stable : C.Stable assertion) : C.Lasts terms assertion :=
  fun first second state mild good guarded holds =>
    stable first second state mild.env good.inv guarded holds

theorem Lasts.and {first second : Db → Local Write Lock → Prop}
    (left : C.Lasts terms first) (right : C.Lasts terms second) :
    C.Lasts terms fun db state => first db state ∧ second db state :=
  fun before after state mild good guarded holds =>
    ⟨left before after state mild good guarded holds.1,
      right before after state mild good guarded holds.2⟩

/-- What is known about the transaction alone. -/
theorem Lasts.local {known : Local Write Lock → Prop} :
    C.Lasts terms fun _ state => known state :=
  fun _ _ _ _ _ _ holds => holds

variable (C) in
/-- From `pre` the script returns only in states that satisfy `post`, and what
it raises satisfies `fails`, if the others keep the relation. -/
def Yields (terms : Terms Db Write Lock) (pre : Db → Local Write Lock → Prop)
    (script : Script Db Write Lock ε β)
    (post : β → Db → Local Write Lock → Prop)
    (fails : ε → Db → Local Write Lock → Prop) : Prop :=
  ∀ db state, C.Fine terms db → Guarded C.sys.schema state → pre db state →
    C.Ends terms (fun result =>
      match result with
      | .ok value => post value
      | .error exception => fails exception) script.run db state

namespace Yields

variable {pre : Db → Local Write Lock → Prop}
variable {post : β → Db → Local Write Lock → Prop}
variable {fails : ε → Db → Local Write Lock → Prop}

/-- A specification of the script holds here as well. -/
theorem of_spec {call : Call} {script : Script Db Write Lock ε β}
    {failing : Db → Local Write Lock → Prop}
    (spec : C.Spec call pre script post failing)
    (vowed : ∀ db state, C.Fine terms db → (C.promise call).commits db state →
      terms.vow db state) :
    C.Yields terms pre script post fun _ => failing := by
  intro db state good guarded holds
  refine (Ends.of_safe vowed (spec db state good.inv guarded holds)).mono ?_
  intro result db state _ ended
  cases result <;> exact ended

/-- The same of a part of a transaction. -/
theorem of_within {call : Call} {script : Script Db Write Lock ε β}
    {failing : Db → Local Write Lock → Prop} (within : script.Within)
    (spec : C.Spec call pre script post failing) :
    C.Yields terms pre script post fun _ => failing := by
  intro db state good guarded holds
  refine (Ends.of_within within (spec db state good.inv guarded holds)).mono ?_
  intro result db state _ ended
  cases result <;> exact ended

/-- A commit that is seen to. -/
theorem of_commit {call : Call} {after : Unit → Db → Local Write Lock → Prop}
    {failing : Db → Local Write Lock → Prop} (stable : C.Stable pre)
    (spec : C.Spec call pre (Script.commit : Script Db Write Lock ε Unit) after
      failing)
    (vowed : ∀ db state, C.Fine terms db → pre db state →
      terms.vow db state) :
    C.Yields terms pre (Script.commit : Script Db Write Lock ε Unit) after
      fails := by
  intro db state good guarded holds now mild
  have here := stable db now state mild.env good.inv guarded holds
  have step := spec now state mild.fine.inv guarded here now (.refl now)
    mild.fine.inv
  exact ⟨vowed now state mild.fine here,
    fun _ last later => step.2 last later.env later.fine.inv⟩

theorem and {left right : β → Db → Local Write Lock → Prop}
    {failsLeft failsRight : ε → Db → Local Write Lock → Prop}
    {script : Script Db Write Lock ε β}
    (first : C.Yields terms pre script left failsLeft)
    (second : C.Yields terms pre script right failsRight) :
    C.Yields terms pre script
      (fun value db state => left value db state ∧ right value db state)
      (fun exception db state => failsLeft exception db state ∧
        failsRight exception db state) := by
  intro db state good guarded holds
  refine ((first db state good guarded holds).and
    (second db state good guarded holds)).mono ?_
  intro result db state _ ended
  cases result <;> exact ended

theorem weaken {stronger : Db → Local Write Lock → Prop}
    {script : Script Db Write Lock ε β}
    (yields : C.Yields terms pre script post fails)
    (implies : ∀ db state, C.Fine terms db → stronger db state → pre db state) :
    C.Yields terms stronger script post fails :=
  fun db state good guarded holds =>
    yields db state good guarded (implies db state good holds)

theorem strengthen {script : Script Db Write Lock ε β}
    {stronger : β → Db → Local Write Lock → Prop}
    {strongerFails : ε → Db → Local Write Lock → Prop}
    (yields : C.Yields terms pre script stronger strongerFails)
    (implies : ∀ value db state, C.Fine terms db → stronger value db state →
      post value db state)
    (impliesFails : ∀ exception db state, C.Fine terms db →
      strongerFails exception db state → fails exception db state) :
    C.Yields terms pre script post fails := by
  intro db state good guarded holds
  refine (yields db state good guarded holds).mono ?_
  intro result
  cases result with
  | ok value => exact implies value
  | error exception => exact impliesFails exception

theorem pure {value : β} (lasts : C.Lasts terms pre)
    (holds : ∀ db state, C.Fine terms db → Guarded C.sys.schema state →
      pre db state → post value db state) :
    C.Yields terms pre (pure value : Script Db Write Lock ε β) post fails := by
  intro db state good guarded before after mild
  exact holds after state mild.fine guarded
    (lasts db after state mild good guarded before)

theorem raise {exception : ε} (lasts : C.Lasts terms pre)
    (holds : ∀ db state, C.Fine terms db → pre db state →
      fails exception db state) :
    C.Yields terms pre (Script.raise exception : Script Db Write Lock ε β)
      post fails := by
  intro db state good guarded before after mild
  exact holds after state mild.fine
    (lasts db after state mild good guarded before)

theorem bind {middle : γ → Db → Local Write Lock → Prop}
    {first : Script Db Write Lock ε γ} {next : γ → Script Db Write Lock ε β}
    (chains : Chains terms)
    (lasts : ∀ exception, C.Lasts terms (fails exception))
    (begins : C.Yields terms pre first middle fails)
    (rest : ∀ value, C.Yields terms (middle value) (next value) post fails) :
    C.Yields terms pre (first >>= next) post fails := by
  intro db state good guarded holds
  refine Ends.bind chains ?_ good guarded (begins db state good guarded holds)
  intro result db state good guarded ended
  cases result with
  | ok value => exact rest value db state good guarded ended
  | error exception =>
      intro after mild
      exact lasts exception db after state mild good guarded ended

theorem map {first : Script Db Write Lock ε γ} {result : γ → β}
    (chains : Chains terms)
    (lasts : ∀ value, C.Lasts terms (post (result value)))
    (lastsFails : ∀ exception, C.Lasts terms (fails exception))
    (yields : C.Yields terms pre first (fun value => post (result value))
      fails) :
    C.Yields terms pre (result <$> first) post fails := by
  intro db state good guarded holds
  refine Ends.bind chains ?_ good guarded (yields db state good guarded holds)
  intro returned db state good guarded ended
  cases returned with
  | ok value =>
      intro after mild
      exact lasts value db after state mild good guarded ended
  | error exception =>
      intro after mild
      exact lastsFails exception db after state mild good guarded ended

theorem observe {query : Db → β} {remark : β → List Write}
    (lasts : C.Lasts terms pre)
    (lastsPost : ∀ value, C.Lasts terms (post value))
    (reads : ∀ db state, C.Fine terms db → Guarded C.sys.schema state →
      pre db state → post (query (C.sys.view db state)) db
        (state.note (remark (query (C.sys.view db state))))) :
    C.Yields terms pre
      (Script.observe query remark : Script Db Write Lock ε β) post
      fails := by
  intro db state good guarded before after mild later next
  have here := reads after state mild.fine guarded
    (lasts db after state mild good guarded before)
  exact lastsPost _ after later _ next mild.fine guarded here

theorem read {query : Db → β} (lasts : C.Lasts terms pre)
    (lastsPost : ∀ value, C.Lasts terms (post value))
    (reads : ∀ db state, C.Fine terms db → Guarded C.sys.schema state →
      pre db state → post (query (C.sys.view db state)) db state) :
    C.Yields terms pre (Script.read query : Script Db Write Lock ε β) post
      fails := by
  apply observe lasts lastsPost
  intro db state good guarded before
  have same : state.note [] = state := by simp [Local.note]
  rw [same]
  exact reads db state good guarded before

theorem exec {statement : Statement Db Write Lock β}
    (lasts : C.Lasts terms pre) (lastsPost : ∀ value,
      C.Lasts terms (post value))
    (effects : ∀ snapshot current state others effect,
      C.Fine terms snapshot → C.Fine terms current →
        Guarded C.sys.schema state →
      C.Mild terms state.held snapshot current →
      pre snapshot state → pre current state →
      statement (C.sys.view snapshot state) (C.sys.view current state)
        others = some effect →
      post effect.result (C.sys.schema.applyAll effect.atOnce current)
        (state.extend effect.writes (C.sys.acquired effect))) :
    C.Yields terms pre (Script.exec statement : Script Db Write Lock ε β)
      post fails := by
  intro db state good guarded before snapshot current mild later others effect
    ran still last next
  have atSnapshot := lasts db snapshot state mild good guarded before
  have atCurrent :=
    lasts snapshot current state later mild.fine guarded atSnapshot
  have here := effects snapshot current state others effect mild.fine later.fine
    guarded later atSnapshot atCurrent ran
  exact lastsPost _ _ last _ next still (guarded_acquired guarded effect) here

theorem commit {after : Unit → Db → Local Write Lock → Prop}
    (lasts : C.Lasts terms pre) (lastsPost : C.Lasts terms (after ()))
    (commits : ∀ db state, C.Fine terms db → Guarded C.sys.schema state →
      pre db state → terms.vow db state ∧
        (C.Fine terms (C.sys.schema.applyAll state.pending db) →
          after () (C.sys.schema.applyAll state.pending db)
            state.committed)) :
    C.Yields terms pre (Script.commit : Script Db Write Lock ε Unit) after
      fails := by
  intro db state good guarded before now mild
  obtain ⟨vowed, committed⟩ := commits now state mild.fine guarded
    (lasts db now state mild good guarded before)
  refine ⟨vowed, fun still last next => ?_⟩
  exact lastsPost _ last _ next still (guarded_committed state)
    (committed still)

theorem rollback {after : Unit → Db → Local Write Lock → Prop}
    (lasts : C.Lasts terms pre) (lastsPost : C.Lasts terms (after ()))
    (undone : ∀ db state, C.Fine terms db → pre db state →
      after () db state.rolledBack) :
    C.Yields terms pre (Script.rollback : Script Db Write Lock ε Unit) after
      fails := by
  intro db state good guarded before now mild last next
  have here := undone now state mild.fine
    (lasts db now state mild good guarded before)
  exact lastsPost _ last _ next mild.fine (guarded_rolledBack state) here

/-- What is known about the transaction must survive its end. -/
theorem session {body : Script Db Write Lock ε β} (chains : Chains terms)
    {inner : β → Db → Local Write Lock → Prop}
    {innerFails : ε → Db → Local Write Lock → Prop}
    (yields : C.Yields terms pre body inner innerFails)
    (lasts : ∀ value, C.Lasts terms (inner value))
    (lastsFails : ∀ exception, C.Lasts terms (innerFails exception))
    (lastsPost : ∀ value, C.Lasts terms (post value))
    (lastsPostFails : ∀ exception, C.Lasts terms (fails exception))
    (undone : ∀ value db state, C.Fine terms db → inner value db state →
      post value db state.rolledBack)
    (undoneFails : ∀ exception db state, C.Fine terms db →
      innerFails exception db state → fails exception db state.rolledBack) :
    C.Yields terms pre (Script.session body) post fails := by
  intro db state good guarded holds
  refine Ends.bind chains ?_ good guarded (yields db state good guarded holds)
  intro result db state good guarded ended
  cases result with
  | ok value =>
      intro after mild last next
      have here := undone value after state mild.fine
        (lasts value db after state mild good guarded ended)
      exact lastsPost value after last _ next mild.fine
        (guarded_rolledBack state) here
  | error exception =>
      intro after mild last next
      have here := undoneFails exception after state mild.fine
        (lastsFails exception db after state mild good guarded ended)
      exact lastsPostFails exception after last _ next mild.fine
        (guarded_rolledBack state) here

/-- Whatever happens, what was committed before stays committed. -/
theorem committed {script : Script Db Write Lock ε β}
    {known : List Write → Prop}
    (grows : ∀ writes more, known writes → known (writes ++ more))
    (vowed : ∀ db state, terms.vow db state) :
    C.Yields terms (fun _ state => known state.written) script
      (fun _ _ state => known state.written)
      fun _ _ state => known state.written := by
  have ends : ∀ (program : Prog Db Write Lock (Except ε β)) db state,
      known state.written →
      C.Ends terms (fun _ _ state => known state.written) program db
        state := by
    intro program
    induction program with
    | done value => exact fun _ _ holds _ _ => holds
    | halt => exact fun _ _ _ => trivial
    | query read remark tail ih => exact fun _ _ holds _ _ => ih _ _ _ holds
    | exec statement tail ih =>
        exact fun _ _ holds _ _ _ _ _ effect _ _ => ih _ _ _ holds
    | commit tail ih =>
        exact fun _ _ holds after _ =>
          ⟨vowed after _, fun _ => ih _ _ (grows _ _ holds)⟩
    | rollback tail ih => exact fun _ _ holds _ _ => ih _ _ holds
  intro db state _ _ holds
  refine (ends script.run db state holds).mono ?_
  intro result db state _ still
  cases result <;> exact still

theorem quietly {body : Script Db Write Lock ε β}
    {after : Unit → Db → Local Write Lock → Prop} (chains : Chains terms)
    (lasts : C.Lasts terms (after ()))
    (yields : C.Yields terms pre body (fun _ => after ()) fun _ => after ()) :
    C.Yields terms pre (Script.quietly body) after fails := by
  intro db state good guarded holds
  refine Ends.bind chains ?_ good guarded (yields db state good guarded holds)
  intro result db state good guarded ended now mild
  cases result <;> exact lasts db now state mild good guarded ended

/-- What is known of some value is known in the rest for that value. -/
theorem exists_ {δ : Type} {script : Script Db Write Lock ε β}
    {known : δ → Db → Local Write Lock → Prop}
    (yields : ∀ value, C.Yields terms (known value) script post fails) :
    C.Yields terms (fun db state => ∃ value, known value db state) script post
      fails := by
  rintro db state good guarded ⟨value, holds⟩
  exact yields value db state good guarded holds

/-- A fact known before a script may be used in its proof. -/
theorem fact {known : Prop} {script : Script Db Write Lock ε β}
    (yields : known → C.Yields terms pre script post fails) :
    C.Yields terms (fun db state => known ∧ pre db state) script post
      fails := by
  rintro db state good guarded ⟨holds, before⟩
  exact yields holds db state good guarded before

end Yields

/-! ## Soundness -/

section Soundness

variable {n : Nat} {post : Call → α → Db → Local Write Lock → Prop}
variable {state next : State Db Write Lock Call α n}
variable {action : Action Write Call n}

/-- A step of another session, or of the environment, leaves the session alone
and changes the data as the others may. -/
theorem Good.act_other (good : C.Good post state)
    (taken : C.sys.act state action = some next) {process : Fin n}
    (other : ∀ actor, action.actor = some actor → actor ≠ process) :
    next.session process = state.session process ∧
      C.Env (state.session process).state.held state.db next.db := by
  cases action with
  | start actor call =>
      have different := other actor rfl
      simp only [System.act] at taken
      split at taken
      · cases taken
        exact ⟨Function.update_of_ne different.symm _ _, .refl _⟩
      · cases taken
  | crash actor =>
      have different := other actor rfl
      cases taken
      exact ⟨Function.update_of_ne different.symm _ _, .refl _⟩
  | ambient write =>
      simp only [System.act] at taken
      split at taken
      · rename_i isAmbient
        cases taken
        exact ⟨rfl, .ambient (.refl _) good.inv isAmbient⟩
      · cases taken
  | step actor =>
      have different := other actor rfl
      have stays : ∀ (state : State Db Write Lock Call α n) session,
          (state.replace actor session).session process =
            state.session process :=
        fun state session => Function.update_of_ne different.symm _ _
      have apart := good.apart process actor different.symm
      rcases good.act_cases taken with ⟨committer, call, commits⟩ | quiet
      · cases commits.isStep
        refine ⟨commits.others process different.symm, ?_⟩
        rw [commits.db]
        exact .commit (.refl _) good.inv commits.guarded commits.promised apart
      · have secure := good.secure actor
        simp only [System.act] at taken
        unfold System.advance at taken
        simp only at taken
        split at taken
        · cases taken
        · cases taken
        · cases taken
          exact ⟨stays _ _, .refl _⟩
        · rename_i β statement rest isExec
          split at taken
          · cases taken
            exact ⟨stays _ _, .refl _⟩
          · rename_i snapshot isSnapshot
            obtain ⟨call, before, middle, isCall, safe, earlier, fine, later,
              same⟩ := secure.atSnapshot (by simp [isExec]) isSnapshot
            split at taken
            · cases taken
            · rename_i effect ran
              split at taken
              · cases taken
              · rename_i free
                rw [Bool.not_eq_true] at free
                cases taken
                rw [isExec] at safe
                rw [same] at ran
                have step := safe middle state.db earlier fine later good.inv
                  _ effect ran
                refine ⟨stays _ _, ?_⟩
                exact .instant (.refl _) good.inv step.1
                  (apart.append (apart_of_free free different.symm))
        · rename_i rest isCommit
          cases taken
          have committing := quiet.committing
          obtain ⟨_, call, isCall, _⟩ := secure.safe (by simp [isCommit])
            (Or.inr (by simp [isCommit, Prog.isExec]))
          simp [System.committing, isCommit, isCall] at committing
        · cases taken
          exact ⟨stays _ _, .refl _⟩

variable (C) in
/-- A session that is watched: it has ended as it should, or is at a point of
its call from which it will. -/
structure Watched (terms : Terms Db Write Lock)
    (ending : α → Db → Local Write Lock → Prop) (db : Db)
    (session : Session Db Write Lock Call α) : Prop where
  ended : ∀ value, session.prog = .done value →
    ∃ then_, C.inv then_ ∧ ending value then_ session.state
  ahead : session.prog.idle = false →
    match session.snapshot with
    | none => C.Ends terms ending session.prog db session.state
    | some snapshot => session.prog.isExec = true ∧ ∃ before middle,
        C.Ends terms ending session.prog before session.state ∧
        C.Mild terms session.state.held before middle ∧
        C.Mild terms session.state.held middle db ∧
        snapshot = C.sys.view middle session.state

variable {ending : α → Db → Local Write Lock → Prop}

theorem Watched.mild (chains : Chains terms) {first second : Db}
    {session : Session Db Write Lock Call α}
    (watched : C.Watched terms ending first session)
    (changed : session.prog.idle = false →
      C.Mild terms session.state.held first second) :
    C.Watched terms ending second session where
  ended := watched.ended
  ahead := by
    intro busy
    have ahead := watched.ahead busy
    have changed := changed busy
    split at ahead
    · exact ahead.mild chains changed
    · obtain ⟨isExec, before, middle, ends, earlier, later, taken⟩ := ahead
      exact ⟨isExec, before, middle, ends, earlier,
        later.trans chains changed, taken⟩

/-- The session goes on, and no statement is in progress. -/
theorem Watched.of_ends (chains : Chains terms) {db : Db}
    (good : C.Fine terms db)
    {session : Session Db Write Lock Call α}
    (between : session.snapshot = none)
    (ends : C.Ends terms ending session.prog db session.state) :
    C.Watched terms ending db session where
  ended := by
    intro value isDone
    rw [isDone] at ends
    exact ⟨db, good.inv, ends db (.refl chains good)⟩
  ahead := by
    intro _
    rw [between]
    exact ends

theorem Watched.ends {db : Db} {session : Session Db Write Lock Call α}
    (watched : C.Watched terms ending db session)
    (busy : session.prog.idle = false)
    (between : session.snapshot = none ∨ session.prog.isExec = false) :
    C.Ends terms ending session.prog db session.state := by
  have ahead := watched.ahead busy
  split at ahead
  · exact ahead
  · rename_i snapshot taken
    rcases between with none | notExec
    · rw [taken] at none
      cases none
    · rw [ahead.1] at notExec
      cases notExec

/-- A step of the session itself. -/
theorem Watched.step (chains : Chains terms) (good : C.Good post state)
    (fine : C.Fine terms state.db) (still : C.Fine terms next.db)
    {process : Fin n}
    (watched : C.Watched terms ending state.db (state.session process))
    (taken : C.sys.advance state process = some next) :
    C.Watched terms ending next.db (next.session process) := by
  have secure := good.secure process
  unfold System.advance at taken
  simp only at taken
  split at taken
  · cases taken
  · cases taken
  · rename_i β read remark rest isQuery
    cases taken
    obtain ⟨between, _⟩ := secure.safe (by simp [isQuery])
      (Or.inr (by simp [isQuery, Prog.isExec]))
    have ends := watched.ends (by simp [isQuery, Prog.idle]) (Or.inl between)
    rw [isQuery] at ends
    simp only [State.replace, Function.update_self]
    exact .of_ends chains fine between
      (ends state.db (.refl chains fine))
  · rename_i β statement rest isExec
    split at taken
    · rename_i between
      cases taken
      have ends := watched.ends (by simp [isExec, Prog.idle]) (Or.inl between)
      simp only [State.replace, Function.update_self]
      constructor
      · intro value isDone
        simp [isExec] at isDone
      · intro _
        exact ⟨by simp [isExec, Prog.isExec], state.db, state.db, ends,
          .refl chains fine, .refl chains fine, rfl⟩
    · rename_i snapshot isSnapshot
      have ahead := watched.ahead (by simp [isExec, Prog.idle])
      rw [isSnapshot] at ahead
      obtain ⟨_, before, middle, ends, earlier, later, same⟩ := ahead
      split at taken
      · cases taken
      · rename_i effect ran
        split at taken
        · cases taken
        · cases taken
          rw [isExec] at ends
          rw [same] at ran
          have step := ends middle state.db earlier later _ effect ran still
          simp only [State.replace, Function.update_self]
          exact .of_ends chains still rfl step
  · rename_i rest isCommit
    cases taken
    obtain ⟨between, _⟩ := secure.safe (by simp [isCommit])
      (Or.inr (by simp [isCommit, Prog.isExec]))
    have ends := watched.ends (by simp [isCommit, Prog.idle]) (Or.inl between)
    rw [isCommit] at ends
    simp only [State.replace, Function.update_self]
    exact .of_ends chains still between
      ((ends state.db (.refl chains fine)).2 still)
  · rename_i rest isRollback
    cases taken
    obtain ⟨between, _⟩ := secure.safe (by simp [isRollback])
      (Or.inr (by simp [isRollback, Prog.isExec]))
    have ends := watched.ends (by simp [isRollback, Prog.idle])
      (Or.inl between)
    rw [isRollback] at ends
    simp only [State.replace, Function.update_self]
    exact .of_ends chains fine between
      (ends state.db (.refl chains fine))

variable (C) in
/-- The rules of a watch: the calls that are watched, what their callers see to
before they start them, the terms they run on, and how they end. -/
structure Watch where
  watched : Call → Prop
  before : Call → Db → Prop
  terms : Call → Terms Db Write Lock
  ending : Call → α → Db → Local Write Lock → Prop
  chains : ∀ call, Chains (terms call)
  ends : ∀ call, watched call → ∀ db, C.Fine (terms call) db →
    before call db →
    C.Ends (terms call) (ending call) (C.sys.body call) db {}

/-- The action starts watched calls as they may be started, and keeps what the
others rely on. -/
structure Watch.Respected (watch : C.Watch)
    (state : State Db Write Lock Call α n) (action : Action Write Call n)
    (next : State Db Write Lock Call α n) : Prop where
  starts : ∀ process call, action = .start process call →
    watch.watched call → watch.before call state.db
  always : ∀ process call, (next.session process).call = some call →
    watch.watched call → (watch.terms call).always next.db
  keeps : ∀ process call, (state.session process).call = some call →
    watch.watched call → (state.session process).prog.idle = false →
    (∀ actor, action.actor = some actor → actor ≠ process) →
    (watch.terms call).keeps state.db next.db

/-- Every watched call is under watch. -/
def Watch.Holds (watch : C.Watch) (state : State Db Write Lock Call α n) :
    Prop :=
  ∀ process call, (state.session process).call = some call →
    watch.watched call →
    (watch.terms call).always state.db ∧
      C.Watched (watch.terms call) (watch.ending call) state.db
        (state.session process)

theorem Watch.holds_initial (watch : C.Watch) (db : Db) :
    watch.Holds (System.initial (n := n) db) := by
  intro process call isCall
  cases isCall

theorem Watch.holds_act (watch : C.Watch) (good : C.Good post state)
    (fine : C.Good post next) (holds : watch.Holds state)
    (taken : C.sys.act state action = some next)
    (respected : watch.Respected state action next) : watch.Holds next := by
  intro process call isCall isWatched
  have still := respected.always process call isCall isWatched
  refine ⟨still, ?_⟩
  by_cases own : action.actor = some process
  · cases action with
    | ambient write => cases own
    | start actor started =>
        cases own
        simp only [System.act] at taken
        split at taken
        · cases taken
          simp only [State.replace, Function.update_self,
            Option.some.injEq] at isCall ⊢
          subst isCall
          have starting : C.Fine (watch.terms started) state.db :=
            ⟨good.inv, still⟩
          exact .of_ends (watch.chains started) starting rfl
            (watch.ends started isWatched state.db starting
              (respected.starts process started rfl isWatched))
        · cases taken
    | crash actor =>
        cases own
        cases taken
        simp only [State.replace, Function.update_self]
        constructor
        · intro value isDone
          cases isDone
        · intro busy
          cases busy
    | step actor =>
        cases own
        have same : (next.session process).call =
            (state.session process).call :=
          System.call_of_advance taken
        obtain ⟨always, watched⟩ := holds process call (same ▸ isCall) isWatched
        exact watched.step (watch.chains call) good ⟨good.inv, always⟩
          ⟨fine.inv, still⟩ taken
  · have others : ∀ actor, action.actor = some actor → actor ≠ process := by
      rintro actor isActor rfl
      exact own isActor
    obtain ⟨same, changed⟩ := good.act_other taken others
    rw [same] at isCall ⊢
    refine (holds process call isCall isWatched).2.mild (watch.chains call) ?_
    intro busy
    exact ⟨changed, respected.keeps process call isCall isWatched busy others,
      fine.inv, still⟩

/-- A watched session commits only what it has seen to. -/
theorem Watch.vowed (watch : C.Watch) (good : C.Good post state)
    (holds : watch.Holds state) {process : Fin n} {call : Call}
    (committing : System.committing state action = some (process, call))
    (isWatched : watch.watched call) :
    (watch.terms call).vow state.db (state.session process).state := by
  obtain ⟨rest, isCommit, isCall⟩ := System.commit_of_committing committing
  obtain ⟨always, watched⟩ := holds process call isCall isWatched
  have ends := watched.ends (by simp [isCommit, Prog.idle])
    (Or.inr (by simp [isCommit, Prog.isExec]))
  rw [isCommit] at ends
  exact (ends state.db (.refl (watch.chains call) ⟨good.inv, always⟩)).1

end Soundness

end Setting

end Sqlery.ReadCommitted
