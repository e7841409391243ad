import Sqlery.ReadCommitted.Machine

/-!
# Reasoning about interleaved transactions

The rule of this file is the usual one for concurrent programs.  Every call
promises something about each transaction it commits, and may rely on the
same promise of all the others.  What the others can do to a session is
limited further by the locks it holds: `Env` collects the changes of the
database that transactions of other sessions can make while a session holds
given locks.

`Triple` is the judgement used on programs.  Its rules follow the
constructors of `Prog`; the assertion before a statement has to be stable
under `Env`, because other sessions run until the statement takes effect.
`System.sound` turns triples for the bodies of all calls into facts about
every state the system reaches.
-/

namespace Sqlery.ReadCommitted

variable {Db Write Lock Call α β : Type}

/-- A session holds the locks its uncommitted writes need. -/
def Guarded (S : Schema Db Write Lock) (state : Local Write Lock) : Prop :=
  ∀ write ∈ state.pending, ∀ lock ∈ S.guards write, lock ∈ state.held

/-- No lock of the one excludes a lock of the other. -/
def Apart (S : Schema Db Write Lock) (left right : List Lock) : Prop :=
  ∀ mine ∈ left, ∀ theirs ∈ right, S.conflicts mine theirs = false

theorem Apart.symm {S : Schema Db Write Lock} {left right : List Lock}
    (apart : Apart S left right) : Apart S right left := by
  intro mine mineMember theirs theirsMember
  rw [S.conflicts_symm]
  exact apart theirs theirsMember mine mineMember

theorem Apart.append {S : Schema Db Write Lock}
    {left first second : List Lock}
    (firstApart : Apart S left first) (secondApart : Apart S left second) :
    Apart S left (first ++ second) := by
  intro mine mineMember theirs theirsMember
  rcases List.mem_append.mp theirsMember with inFirst | inSecond
  · exact firstApart mine mineMember theirs inFirst
  · exact secondApart mine mineMember theirs inSecond

theorem Apart.nil (S : Schema Db Write Lock) (left : List Lock) :
    Apart S left [] := by
  intro _ _ theirs theirsMember
  simp at theirsMember

theorem Guarded.extend {S : Schema Db Write Lock}
    {state : Local Write Lock} {writes : List Write} {locks : List Lock}
    (guarded : Guarded S state)
    (covered : ∀ write ∈ writes, ∀ lock ∈ S.guards write, lock ∈ locks) :
    Guarded S (state.extend writes locks) := by
  intro write member lock needed
  simp only [Local.extend] at member ⊢
  rw [List.mem_append] at member ⊢
  rcases member with old | new
  · exact Or.inl (guarded write old lock needed)
  · exact Or.inr (covered write new lock needed)

/-- What sessions promise: about a transaction at the moment it commits, about
a write that takes effect at once, and about the remarks a query leaves. -/
structure Contract (Db Write Lock : Type) where
  commits : Db → Local Write Lock → Prop
  instant : Db → Local Write Lock → List Write → Prop
  notes : Db → Local Write Lock → List Write → Prop

/-- The setting of a proof: the code, an invariant of the committed data and
the promise of every call.  The promises keep the invariant. -/
structure Setting (Db Write Lock Call α : Type) where
  sys : System Db Write Lock Call α
  inv : Db → Prop
  promise : Call → Contract Db Write Lock
  commit_inv : ∀ call db state, inv db → Guarded sys.schema state →
    (promise call).commits db state →
    inv (sys.schema.applyAll state.pending db)
  instant_inv : ∀ call db state writes, inv db →
    (promise call).instant db state writes →
    inv (sys.schema.applyAll writes db)
  ambient_inv : ∀ write db, inv db → sys.ambient write = true →
    inv (sys.schema.apply write db)

namespace Setting

variable (C : Setting Db Write Lock Call α)

/-- The changes other sessions can make while a session holds `held`. -/
inductive Env (held : List Lock) : Db → Db → Prop where
  | refl (db : Db) : Env held db db
  | commit {first db : Db} {call : Call} {other : Local Write Lock} :
      Env held first db → C.inv db → Guarded C.sys.schema other →
      (C.promise call).commits db other →
      Apart C.sys.schema held other.held →
      Env held first (C.sys.schema.applyAll other.pending db)
  | instant {first db : Db} {call : Call} {other : Local Write Lock}
      {writes : List Write} :
      Env held first db → C.inv db →
      (C.promise call).instant db other writes →
      Apart C.sys.schema held other.held →
      Env held first (C.sys.schema.applyAll writes db)
  | ambient {first db : Db} {write : Write} :
      Env held first db → C.inv db → C.sys.ambient write = true →
      Env held first (C.sys.schema.apply write db)

variable {C} {call : Call}

theorem Env.trans {held : List Lock} {first second third : Db}
    (left : C.Env held first second) (right : C.Env held second third) :
    C.Env held first third := by
  induction right with
  | refl => exact left
  | commit _ good guarded promised apart ih =>
      exact .commit ih good guarded promised apart
  | instant _ good promised apart ih => exact .instant ih good promised apart
  | ambient _ good clock ih => exact .ambient ih good clock

theorem Env.inv {held : List Lock} {first second : Db}
    (changed : C.Env held first second) (good : C.inv first) :
    C.inv second := by
  induction changed with
  | refl => exact good
  | commit _ good guarded promised _ _ =>
      exact C.commit_inv _ _ _ good guarded promised
  | instant _ good promised _ _ => exact C.instant_inv _ _ _ _ good promised
  | ambient _ good clock _ => exact C.ambient_inv _ _ good clock

variable (C) in
/-- Every remaining step of the program keeps the promise of `call`, whatever
the other sessions do in between, and a return satisfies `post`. -/
def Safe (call : Call) {β : Type} (post : β → Db → Local Write Lock → Prop) :
    Prog Db Write Lock β → Db → Local Write Lock → Prop
  | .done value, db, state =>
      ∀ after, C.Env state.held db after → C.inv after →
        post value after state
  | .halt, _, _ => True
  | .query read remark next, db, state =>
      ∀ after, C.Env state.held db after → C.inv after →
        (C.promise call).notes after state
            (remark (read (C.sys.view after state))) ∧
          Safe call post (next (read (C.sys.view after state))) after
            (state.note (remark (read (C.sys.view after state))))
  | .exec statement next, db, state =>
      ∀ snapshot current, C.Env state.held db snapshot → C.inv snapshot →
        C.Env state.held snapshot current → C.inv current →
        ∀ others effect,
          statement (C.sys.view snapshot state) (C.sys.view current state)
            others = some effect →
          (C.promise call).instant current
              (state.extend effect.writes (C.sys.acquired effect))
              effect.atOnce ∧
            Safe call post (next effect.result)
              (C.sys.schema.applyAll effect.atOnce current)
              (state.extend effect.writes (C.sys.acquired effect))
  | .commit next, db, state =>
      ∀ after, C.Env state.held db after → C.inv after →
        (C.promise call).commits after state ∧
          Safe call post next (C.sys.schema.applyAll state.pending after)
            state.committed
  | .rollback next, db, state =>
      ∀ after, C.Env state.held db after → C.inv after →
        Safe call post next after state.rolledBack

theorem Safe.env {post : β → Db → Local Write Lock → Prop}
    {program : Prog Db Write Lock β} {first second : Db}
    {state : Local Write Lock}
    (safe : C.Safe call post program first state)
    (changed : C.Env state.held first second) :
    C.Safe call post program second state := by
  cases program with
  | done value =>
      exact fun after env good => safe after (changed.trans env) good
  | halt => trivial
  | query read remark next =>
      exact fun after env good => safe after (changed.trans env) good
  | exec statement next =>
      exact fun snapshot current env good =>
        safe snapshot current (changed.trans env) good
  | commit next =>
      exact fun after env good => safe after (changed.trans env) good
  | rollback next =>
      exact fun after env good => safe after (changed.trans env) good

theorem guarded_acquired {state : Local Write Lock}
    (guarded : Guarded C.sys.schema state) (effect : Effect Write Lock β) :
    Guarded C.sys.schema
      (state.extend effect.writes (C.sys.acquired effect)) := by
  apply guarded.extend
  intro write member lock needed
  simp only [System.acquired, List.mem_append, List.mem_flatMap]
  exact Or.inr ⟨write, member, needed⟩

theorem guarded_committed (state : Local Write Lock) :
    Guarded C.sys.schema state.committed := by
  intro write member
  simp [Local.committed] at member

theorem guarded_rolledBack (state : Local Write Lock) :
    Guarded C.sys.schema state.rolledBack := by
  intro write member
  simp [Local.rolledBack] at member

theorem Safe.bind {post : β → Db → Local Write Lock → Prop} {γ : Type}
    {middle : γ → Db → Local Write Lock → Prop}
    {program : Prog Db Write Lock γ} {next : γ → Prog Db Write Lock β}
    (rest : ∀ value db state, C.inv db → Guarded C.sys.schema state →
      middle value db state → C.Safe call post (next value) db state)
    {db : Db} {state : Local Write Lock} (good : C.inv db)
    (guarded : Guarded C.sys.schema state)
    (safe : C.Safe call middle program db state) :
    C.Safe call post (program.bind next) db state := by
  induction program generalizing db state with
  | done value =>
      exact rest value db state good guarded (safe db (.refl db) good)
  | halt => trivial
  | query read remark tail ih =>
      intro after env still
      have step := safe after env still
      exact ⟨step.1, ih _ still guarded step.2⟩
  | exec statement tail ih =>
      intro snapshot current env fine later still others effect ran
      have step :=
        safe snapshot current env fine later still others effect ran
      exact ⟨step.1, ih _ (C.instant_inv _ _ _ _ still step.1)
        (guarded_acquired guarded effect) step.2⟩
  | commit tail ih =>
      intro after env still
      have step := safe after env still
      exact ⟨step.1,
        ih (C.commit_inv _ _ _ still guarded step.1)
          (guarded_committed state) step.2⟩
  | rollback tail ih =>
      exact fun after env still =>
        ih still (guarded_rolledBack state) (safe after env still)

theorem Safe.mono {post weaker : β → Db → Local Write Lock → Prop}
    {program : Prog Db Write Lock β}
    (implies : ∀ value db state, C.inv db → post value db state →
      weaker value db state)
    {db : Db} {state : Local Write Lock}
    (safe : C.Safe call post program db state) :
    C.Safe call weaker program db state := by
  induction program generalizing db state with
  | done value =>
      exact fun after env still => implies value after state still
        (safe after env still)
  | halt => trivial
  | query read remark tail ih =>
      intro after env still
      have step := safe after env still
      exact ⟨step.1, ih _ step.2⟩
  | exec statement tail ih =>
      intro snapshot current env fine later still others effect ran
      have step :=
        safe snapshot current env fine later still others effect ran
      exact ⟨step.1, ih _ step.2⟩
  | commit tail ih =>
      intro after env still
      have step := safe after env still
      exact ⟨step.1, ih step.2⟩
  | rollback tail ih =>
      exact fun after env still => ih (safe after env still)

/-- Two things that are known of the same program. -/
theorem Safe.and {left right : β → Db → Local Write Lock → Prop}
    {program : Prog Db Write Lock β} {db : Db} {state : Local Write Lock}
    (first : C.Safe call left program db state)
    (second : C.Safe call right program db state) :
    C.Safe call (fun value db state => left value db state ∧
      right value db state) program db state := by
  induction program generalizing db state with
  | done value =>
      exact fun after env still => ⟨first after env still,
        second after env still⟩
  | halt => trivial
  | query read remark tail ih =>
      intro after env still
      have step := first after env still
      exact ⟨step.1, ih _ step.2 (second after env still).2⟩
  | exec statement tail ih =>
      intro snapshot current env fine later still others effect ran
      have step := first snapshot current env fine later still others effect
        ran
      exact ⟨step.1, ih _ step.2
        (second snapshot current env fine later still others effect ran).2⟩
  | commit tail ih =>
      intro after env still
      have step := first after env still
      exact ⟨step.1, ih step.2 (second after env still).2⟩
  | rollback tail ih =>
      exact fun after env still => ih (first after env still)
        (second after env still)

variable (C) in
/-- A fact about the data that no session can undo. -/
structure Lasting (fact : Db → Prop) : Prop where
  commits : ∀ call db state, C.inv db → Guarded C.sys.schema state →
    (C.promise call).commits db state → fact db →
    fact (C.sys.schema.applyAll state.pending db)
  instant : ∀ call db state writes, C.inv db →
    (C.promise call).instant db state writes → fact db →
    fact (C.sys.schema.applyAll writes db)
  ambient : ∀ write db, C.inv db → C.sys.ambient write = true → fact db →
    fact (C.sys.schema.apply write db)

theorem Lasting.env {fact : Db → Prop} (lasting : C.Lasting fact)
    {held : List Lock} {first second : Db}
    (changed : C.Env held first second) (holds : fact first) :
    fact second := by
  induction changed with
  | refl => exact holds
  | commit _ good guarded promised _ ih =>
      exact lasting.commits _ _ _ good guarded promised ih
  | instant _ good promised _ ih =>
      exact lasting.instant _ _ _ _ good promised ih
  | ambient _ good clock ih => exact lasting.ambient _ _ good clock ih

/-- A lasting fact holds to the end of any safe program. -/
theorem Safe.frame {fact : Db → Prop} (lasting : C.Lasting fact)
    {post : β → Db → Local Write Lock → Prop} {program : Prog Db Write Lock β}
    {db : Db} {state : Local Write Lock}
    (guarded : Guarded C.sys.schema state)
    (safe : C.Safe call post program db state) (holds : fact db) :
    C.Safe call (fun value db state => post value db state ∧ fact db) program
      db state := by
  induction program generalizing db state with
  | done value =>
      intro after env still
      exact ⟨safe after env still, lasting.env env holds⟩
  | halt => trivial
  | query read remark tail ih =>
      intro after env still
      have step := safe after env still
      exact ⟨step.1, ih _ guarded step.2 (lasting.env env holds)⟩
  | exec statement tail ih =>
      intro snapshot current env fine later still others effect ran
      have step :=
        safe snapshot current env fine later still others effect ran
      have atCurrent := lasting.env later (lasting.env env holds)
      exact ⟨step.1, ih _ (guarded_acquired guarded effect) step.2
        (lasting.instant _ _ _ _ still step.1 atCurrent)⟩
  | commit tail ih =>
      intro after env still
      have step := safe after env still
      exact ⟨step.1, ih (guarded_committed state) step.2
        (lasting.commits _ _ _ still guarded step.1 (lasting.env env holds))⟩
  | rollback tail ih =>
      intro after env still
      exact ih (guarded_rolledBack state) (safe after env still)
        (lasting.env env holds)

variable (C) in
/-- What is known of a write from the moment it is committed. -/
structure Endures (known : Write → Db → Prop) : Prop where
  lasting : ∀ write, C.Lasting (known write)
  commits : ∀ call db state, C.inv db → Guarded C.sys.schema state →
    (C.promise call).commits db state → ∀ write ∈ state.pending,
    known write (C.sys.schema.applyAll state.pending db)

/-- To the end of any safe program it is known of all that the call has
committed. -/
theorem Safe.written {known : Write → Db → Prop} (endures : C.Endures known)
    {post : β → Db → Local Write Lock → Prop} {program : Prog Db Write Lock β}
    {db : Db} {state : Local Write Lock} (good : C.inv db)
    (guarded : Guarded C.sys.schema state)
    (safe : C.Safe call post program db state)
    (holds : ∀ write ∈ state.written, known write db) :
    C.Safe call (fun value db state => post value db state ∧
      ∀ write ∈ state.written, known write db) program db state := by
  have lasts : ∀ {held : List Lock} {first second : Db}
      {writes : List Write}, C.Env held first second →
      (∀ write ∈ writes, known write first) →
      ∀ write ∈ writes, known write second :=
    fun env holds write member =>
      (endures.lasting write).env env (holds write member)
  induction program generalizing db state with
  | done value =>
      exact fun after env still => ⟨safe after env still, lasts env holds⟩
  | halt => trivial
  | query read remark tail ih =>
      intro after env still
      have step := safe after env still
      exact ⟨step.1, ih _ still guarded step.2 (lasts env holds)⟩
  | exec statement tail ih =>
      intro snapshot current env fine later still others effect ran
      have step :=
        safe snapshot current env fine later still others effect ran
      refine ⟨step.1, ih _ (C.instant_inv _ _ _ _ still step.1)
        (guarded_acquired guarded effect) step.2 ?_⟩
      intro write member
      exact (endures.lasting write).instant _ _ _ _ still step.1
        (lasts later (lasts env holds) write member)
  | commit tail ih =>
      intro after env still
      have step := safe after env still
      refine ⟨step.1, ih (C.commit_inv _ _ _ still guarded step.1)
        (guarded_committed state) step.2 ?_⟩
      intro write member
      rcases List.mem_append.mp member with earlier | now
      · exact (endures.lasting write).commits _ _ _ still guarded step.1
          (lasts env holds write earlier)
      · exact endures.commits _ _ _ still guarded step.1 write now
  | rollback tail ih =>
      intro after env still
      exact ih still (guarded_rolledBack state) (safe after env still)
        (lasts env holds)

variable (C) in
/-- An assertion that survives what the other sessions can do. -/
def Stable (assertion : Db → Local Write Lock → Prop) : Prop :=
  ∀ first second state, C.Env state.held first second → C.inv first →
    Guarded C.sys.schema state → assertion first state →
    assertion second state

theorem stable_and {first second : Db → Local Write Lock → Prop}
    (left : C.Stable first) (right : C.Stable second) :
    C.Stable fun db state => first db state ∧ second db state :=
  fun before after state env inv guarded holds =>
    ⟨left before after state env inv guarded holds.1,
      right before after state env inv guarded holds.2⟩

theorem stable_fact {fact : Prop} :
    C.Stable fun _ _ => fact :=
  fun _ _ _ _ _ _ holds => holds

theorem stable_when {condition : Prop} {known : Db → Local Write Lock → Prop}
    (stable : C.Stable known) :
    C.Stable fun db state => condition → known db state :=
  fun before after state env inv guarded holds met =>
    stable before after state env inv guarded (holds met)

theorem stable_exists {δ : Type} {known : δ → Db → Local Write Lock → Prop}
    (stable : ∀ value, C.Stable (known value)) :
    C.Stable fun db state => ∃ value, known value db state :=
  fun before after state env inv guarded ⟨value, holds⟩ =>
    ⟨value, stable value before after state env inv guarded holds⟩

variable (C) in
/-- A stable assertion that the steps of its own transaction keep as well. -/
structure Kept (call : Call) (known : Db → Local Write Lock → Prop) :
    Prop where
  stable : C.Stable known
  note : ∀ db state remarks, known db state → known db (state.note remarks)
  extend : ∀ db state writes locks, known db state →
    known db (state.extend writes locks)
  instant : ∀ db state writes, (C.promise call).instant db state writes →
    known db state → known (C.sys.schema.applyAll writes db) state

/-- Such an assertion holds to the end of a program that stays inside the
transaction. -/
theorem Safe.keep {known : Db → Local Write Lock → Prop}
    (kept : C.Kept call known) {post : β → Db → Local Write Lock → Prop}
    {program : Prog Db Write Lock β} (within : program.Within) {db : Db}
    {state : Local Write Lock} (good : C.inv db)
    (guarded : Guarded C.sys.schema state)
    (safe : C.Safe call post program db state) (holds : known db state) :
    C.Safe call (fun value db state => post value db state ∧ known db state)
      program db state := by
  induction program generalizing db state with
  | done value =>
      intro after env still
      exact ⟨safe after env still,
        kept.stable _ _ _ env good guarded holds⟩
  | halt => trivial
  | query read remark tail ih =>
      intro after env still
      have step := safe after env still
      have known := kept.stable _ _ _ env good guarded holds
      exact ⟨step.1, ih _ (within _) still guarded step.2
        (kept.note _ _ _ known)⟩
  | exec statement tail ih =>
      intro snapshot current env fine later still others effect ran
      have step :=
        safe snapshot current env fine later still others effect ran
      have atSnapshot := kept.stable _ _ _ env good guarded holds
      have atCurrent := kept.stable _ _ _ later fine guarded atSnapshot
      exact ⟨step.1, ih _ (within _) (C.instant_inv _ _ _ _ still step.1)
        (guarded_acquired guarded effect) step.2
        (kept.instant _ _ _ step.1 (kept.extend _ _ _ _ atCurrent))⟩
  | commit tail => exact within.elim
  | rollback tail => exact within.elim

/-- An assertion that lets every promise be kept, and that nothing undoes,
makes any program safe. -/
theorem Safe.always {known : Db → Local Write Lock → Prop}
    (kept : C.Kept call known)
    (notes : ∀ db state remarks, known db state →
      (C.promise call).notes db state remarks)
    (instants : ∀ db state writes, known db state →
      (C.promise call).instant db state writes)
    (commits : ∀ db state, known db state →
      (C.promise call).commits db state ∧
        known (C.sys.schema.applyAll state.pending db) state.committed)
    (rollbacks : ∀ db state, known db state → known db state.rolledBack)
    (program : Prog Db Write Lock β) {db : Db} {state : Local Write Lock}
    (good : C.inv db) (guarded : Guarded C.sys.schema state)
    (holds : known db state) :
    C.Safe call (fun _ => known) program db state := by
  induction program generalizing db state with
  | done value =>
      exact fun after env _ => kept.stable _ _ _ env good guarded holds
  | halt => trivial
  | query read remark tail ih =>
      intro after env still
      have known := kept.stable _ _ _ env good guarded holds
      exact ⟨notes _ _ _ known,
        ih _ still guarded (kept.note _ _ _ known)⟩
  | exec statement tail ih =>
      intro snapshot current env fine later still others effect ran
      have atSnapshot := kept.stable _ _ _ env good guarded holds
      have atCurrent := kept.stable _ _ _ later fine guarded atSnapshot
      have extended := kept.extend _ _ effect.writes
        (C.sys.acquired effect) atCurrent
      have promised := instants _ _ effect.atOnce extended
      exact ⟨promised, ih _ (C.instant_inv _ _ _ _ still promised)
        (guarded_acquired guarded effect)
        (kept.instant _ _ _ promised extended)⟩
  | commit tail ih =>
      intro after env still
      have step := commits _ _ (kept.stable _ _ _ env good guarded holds)
      exact ⟨step.1, ih (C.commit_inv _ _ _ still guarded step.1)
        (guarded_committed state) step.2⟩
  | rollback tail ih =>
      intro after env still
      exact ih still (guarded_rolledBack state)
        (rollbacks _ _ (kept.stable _ _ _ env good guarded holds))

variable (C) in
/-- From `pre`, the program keeps the promise of `call` at every commit and
returns only in states that satisfy `post`. -/
def Triple (call : Call) {β : Type} (pre : Db → Local Write Lock → Prop)
    (program : Prog Db Write Lock β)
    (post : β → Db → Local Write Lock → Prop) : Prop :=
  ∀ db state, C.inv db → Guarded C.sys.schema state → pre db state →
    C.Safe call post program db state

namespace Triple

variable {pre : Db → Local Write Lock → Prop}
variable {post : β → Db → Local Write Lock → Prop}

theorem weaken {stronger : Db → Local Write Lock → Prop}
    {program : Prog Db Write Lock β}
    (triple : C.Triple call pre program post)
    (implies : ∀ db state, C.inv db → stronger db state → pre db state) :
    C.Triple call stronger program post :=
  fun db state good guarded holds =>
    triple db state good guarded (implies db state good holds)

/-- A lasting fact outlives the program. -/
theorem frame {fact : Db → Prop} (lasting : C.Lasting fact)
    {program : Prog Db Write Lock β}
    (triple : C.Triple call pre program post) :
    C.Triple call (fun db state => pre db state ∧ fact db) program
      (fun value db state => post value db state ∧ fact db) :=
  fun db state good guarded holds =>
    Safe.frame lasting guarded (triple db state good guarded holds.1) holds.2

theorem bind {γ : Type} {middle : γ → Db → Local Write Lock → Prop}
    {program : Prog Db Write Lock γ} {next : γ → Prog Db Write Lock β}
    (first : C.Triple call pre program middle)
    (rest : ∀ value, C.Triple call (middle value) (next value) post) :
    C.Triple call pre (program.bind next) post := by
  intro db state good guarded holds
  exact Safe.bind (fun value db state good guarded holds =>
    rest value db state good guarded holds) good guarded
    (first db state good guarded holds)

theorem done {value : β} (stable : C.Stable pre)
    (holds : ∀ db state, C.inv db → Guarded C.sys.schema state →
      pre db state → post value db state) :
    C.Triple call pre (.done value) post := by
  intro db state good guarded before after env still
  exact holds after state still guarded
    (stable db after state env good guarded before)

theorem halt : C.Triple call pre (.halt : Prog Db Write Lock β) post :=
  fun _ _ _ _ _ => trivial

theorem query {γ : Type} {read : Db → γ} {remark : γ → List Write}
    {next : γ → Prog Db Write Lock β}
    {middle : γ → Db → Local Write Lock → Prop}
    (stable : C.Stable pre)
    (reads : ∀ db state, C.inv db → Guarded C.sys.schema state →
      pre db state →
      (C.promise call).notes db state (remark (read (C.sys.view db state))) ∧
        middle (read (C.sys.view db state)) db
          (state.note (remark (read (C.sys.view db state)))))
    (rest : ∀ value, C.Triple call (middle value) (next value) post) :
    C.Triple call pre (.query read remark next) post := by
  intro db state good guarded before after env still
  have step := reads after state still guarded
    (stable db after state env good guarded before)
  exact ⟨step.1, rest _ after _ still guarded step.2⟩

/-- The precondition holds at the snapshot and when the statement takes
effect. -/
theorem exec {γ : Type} {statement : Statement Db Write Lock γ}
    {next : γ → Prog Db Write Lock β}
    {middle : γ → Db → Local Write Lock → Prop}
    (stable : C.Stable pre)
    (effects : ∀ snapshot current state others effect,
      C.inv snapshot → C.inv current → Guarded C.sys.schema state →
      C.Env state.held snapshot current →
      pre snapshot state → pre current state →
      statement (C.sys.view snapshot state) (C.sys.view current state)
        others = some effect →
      (C.promise call).instant current
          (state.extend effect.writes (C.sys.acquired effect))
          effect.atOnce ∧
        middle effect.result
          (C.sys.schema.applyAll effect.atOnce current)
          (state.extend effect.writes (C.sys.acquired effect)))
    (rest : ∀ value, C.Triple call (middle value) (next value) post) :
    C.Triple call pre (.exec statement next) post := by
  intro db state good guarded before snapshot current env fine later still
    others effect ran
  have atSnapshot := stable db snapshot state env good guarded before
  have atCurrent := stable snapshot current state later fine guarded atSnapshot
  have step := effects snapshot current state others effect fine still
    guarded later atSnapshot atCurrent ran
  exact ⟨step.1, rest _ _ _ (C.instant_inv _ _ _ _ still step.1)
    (guarded_acquired guarded effect) step.2⟩

theorem commit {next : Prog Db Write Lock β}
    {middle : Db → Local Write Lock → Prop}
    (stable : C.Stable pre)
    (keeps : ∀ db state, C.inv db → Guarded C.sys.schema state →
      pre db state →
      (C.promise call).commits db state ∧
        middle (C.sys.schema.applyAll state.pending db) state.committed)
    (rest : C.Triple call middle next post) :
    C.Triple call pre (.commit next) post := by
  intro db state good guarded before after env still
  have step := keeps after state still guarded
    (stable db after state env good guarded before)
  exact ⟨step.1, rest _ _ (C.commit_inv _ _ _ still guarded step.1)
    (guarded_committed state) step.2⟩

theorem rollback {next : Prog Db Write Lock β}
    {middle : Db → Local Write Lock → Prop}
    (stable : C.Stable pre)
    (keeps : ∀ db state, C.inv db → pre db state →
      middle db state.rolledBack)
    (rest : C.Triple call middle next post) :
    C.Triple call pre (.rollback next) post := by
  intro db state good guarded before after env still
  exact rest after state.rolledBack still (guarded_rolledBack state)
    (keeps after state still (stable db after state env good guarded before))

end Triple

end Setting

end Sqlery.ReadCommitted
