import Sqlery.ReadCommitted.Script

/-!
# Programs that run alone

While no other session has a transaction open, a program runs to its end
without waiting.  `Alone` is the relation this computes; a script is followed
by the committed data and the view its transaction has of them.  The machine
takes the steps of such a run.
-/

namespace Sqlery.ReadCommitted

variable {Db Write Lock Call α β γ ε : Type}

/-- No other session has a lock or an uncommitted write. -/
def Others.none : Others Lock where
  busy _ := false
  dirty _ := false

namespace System

variable (sys : System Db Write Lock Call α)

/-- The program ends with a value, in these data and this session. -/
inductive Alone : Prog Db Write Lock β → Db → Local Write Lock → β → Db →
    Local Write Lock → Prop where
  | done {db : Db} {state : Local Write Lock} (value : β) :
      Alone (.done value) db state value db state
  | query {γ : Type} {read : Db → γ} {remark : γ → List Write}
      {next : γ → Prog Db Write Lock β} {db last : Db}
      {state final : Local Write Lock} {value : β} :
      Alone (next (read (sys.view db state))) db
        (state.note (remark (read (sys.view db state)))) value last final →
      Alone (.query read remark next) db state value last final
  | exec {γ : Type} {statement : Statement Db Write Lock γ}
      {next : γ → Prog Db Write Lock β} {db last : Db}
      {state final : Local Write Lock} {value : β}
      (effect : Effect Write Lock γ) :
      statement (sys.view db state) (sys.view db state) .none = some effect →
      Alone (next effect.result) (sys.schema.applyAll effect.atOnce db)
        (state.extend effect.writes (sys.acquired effect)) value last final →
      Alone (.exec statement next) db state value last final
  | commit {next : Prog Db Write Lock β} {db last : Db}
      {state final : Local Write Lock} {value : β} :
      Alone next (sys.view db state) state.committed value last final →
      Alone (.commit next) db state value last final
  | rollback {next : Prog Db Write Lock β} {db last : Db}
      {state final : Local Write Lock} {value : β} :
      Alone next db state.rolledBack value last final →
      Alone (.rollback next) db state value last final

variable {sys}

theorem Alone.bind {program : Prog Db Write Lock β} {db middle last : Db}
    {state between final : Local Write Lock} {value : β} {result : γ}
    (next : β → Prog Db Write Lock γ)
    (first : sys.Alone program db state value middle between)
    (rest : sys.Alone (next value) middle between result last final) :
    sys.Alone (program.bind next) db state result last final := by
  induction first with
  | done value => exact rest
  | query _ ih => exact .query (ih rest)
  | exec effect ran _ ih => exact .exec effect ran (ih rest)
  | commit _ ih => exact .commit (ih rest)
  | rollback _ ih => exact .rollback (ih rest)

/-! ## The steps of the machine -/

/-- The other sessions have no transaction open. -/
def Quiescent {n : Nat} (state : State Db Write Lock Call α n)
    (process : Fin n) : Prop :=
  ∀ other, other ≠ process → (state.session other).state.held = [] ∧
    (state.session other).state.pending = []

theorem others_quiescent {n : Nat} {state : State Db Write Lock Call α n}
    {process : Fin n} (quiescent : Quiescent state process) :
    sys.others state process = .none := by
  have busy : ∀ lock, (sys.others state process).busy lock = false := by
    intro lock
    apply List.any_eq_false.mpr
    intro other _
    by_cases same : other = process
    · simp [same]
    · simp [(quiescent other same).1]
  have dirty : ∀ lock, (sys.others state process).dirty lock = false := by
    intro lock
    apply List.any_eq_false.mpr
    intro other _
    by_cases same : other = process
    · simp [same]
    · simp [(quiescent other same).2]
  calc sys.others state process
      = ⟨(sys.others state process).busy,
          (sys.others state process).dirty⟩ := rfl
    _ = .none := by rw [funext busy, funext dirty]; rfl

theorem Quiescent.replace {n : Nat} {state : State Db Write Lock Call α n}
    {process : Fin n} (quiescent : Quiescent state process) {db : Db}
    {journal : List (Call × List Write)}
    {session : Session Db Write Lock Call α} :
    Quiescent (State.replace { state with db, journal } process session)
      process := by
  intro other different
  simpa [State.replace, different] using quiescent other different

variable (sys) in
/-- The session takes steps until it has returned. -/
structure Returns {n : Nat} (state : State Db Write Lock Call α n)
    (process : Fin n) (value : α) (db : Db) : Prop where
  steps : ∃ count last, sys.run state (List.replicate count (.step process)) =
      some last ∧ (last.session process).prog = .done value ∧ last.db = db

theorem Returns.step {n : Nat} {state next : State Db Write Lock Call α n}
    {process : Fin n} {value : α} {db : Db}
    (taken : sys.advance state process = some next)
    (returns : sys.Returns next process value db) :
    sys.Returns state process value db := by
  obtain ⟨count, last, ran, ends⟩ := returns.steps
  refine ⟨count + 1, last, ?_, ends⟩
  simpa [List.replicate_succ, run, act, taken] using ran

/-- A statement that has its snapshot takes effect at once. -/
theorem advance_exec {n : Nat} {γ : Type}
    {state : State Db Write Lock Call α n} {process : Fin n} (snapshot : Db)
    (statement : Statement Db Write Lock γ) (next : γ → Prog Db Write Lock α)
    (effect : Effect Write Lock γ) (quiescent : Quiescent state process)
    (isExec : (state.session process).prog = .exec statement next)
    (read : (state.session process).snapshot = some snapshot)
    (ran : statement snapshot (sys.view state.db (state.session process).state)
      .none = some effect) :
    sys.advance state process = some (State.replace
      { state with db := sys.schema.applyAll effect.atOnce state.db } process
      { state.session process with
        state := (state.session process).state.extend effect.writes
          (sys.acquired effect)
        snapshot := none
        prog := next effect.result }) := by
  simp only [advance, isExec, read, others_quiescent quiescent, ran]
  simp [Others.none]

/-- A program that runs alone returns after some steps of the machine. -/
theorem Alone.returns {n : Nat} {program : Prog Db Write Lock α}
    {db last : Db} {local_ final : Local Write Lock} {value : α}
    (alone : sys.Alone program db local_ value last final)
    {state : State Db Write Lock Call α n} {process : Fin n}
    (isDb : state.db = db)
    (isProg : (state.session process).prog = program)
    (isLocal : (state.session process).state = local_)
    (unread : (state.session process).snapshot = none)
    (quiescent : Quiescent state process) :
    sys.Returns state process value last := by
  induction alone generalizing state with
  | done value => exact ⟨0, state, rfl, isProg, isDb⟩
  | query _ ih =>
      subst isDb isLocal
      apply Returns.step
      · simp only [advance, isProg]
        rfl
      · apply ih
        · rfl
        · simp [State.replace]
        · simp [State.replace]
        · simpa [State.replace] using unread
        · exact quiescent.replace
  | @exec γ statement next _ _ _ _ _ effect ran _ ih =>
      subst isDb isLocal
      apply Returns.step
      · simp only [advance, isProg, unread]
        rfl
      · apply Returns.step
        · apply advance_exec (sys.view state.db (state.session process).state)
            statement next effect quiescent.replace
          · simp [State.replace]
          · simp [State.replace]
          · simpa [State.replace] using ran
        · apply ih
          · rfl
          · simp [State.replace]
          · simp [State.replace]
          · simp [State.replace]
          · exact quiescent.replace.replace
  | commit _ ih =>
      subst isDb isLocal
      apply Returns.step
      · simp only [advance, isProg]
        rfl
      · apply ih
        · rfl
        · simp [State.replace]
        · simp [State.replace]
        · simpa [State.replace] using unread
        · exact quiescent.replace
  | rollback _ ih =>
      subst isDb isLocal
      apply Returns.step
      · simp only [advance, isProg]
        rfl
      · apply ih
        · rfl
        · simp [State.replace]
        · simp [State.replace]
        · simpa [State.replace] using unread
        · exact quiescent.replace

/-- A call whose body runs alone returns after some steps of the machine. -/
theorem Alone.calls {n : Nat} {state : State Db Write Lock Call α n}
    {process : Fin n} {call : Call} {last : Db} {final : Local Write Lock}
    {value : α} (idle : (state.session process).prog.idle = true)
    (quiescent : Quiescent state process)
    (alone : sys.Alone (sys.body call) state.db {} value last final) :
    ∃ steps ended, sys.run state (Action.calls process call steps) =
        some ended ∧ (ended.session process).prog = .done value ∧
      ended.db = last := by
  have started : sys.act state (.start process call) = some (state.replace
      process { call := some call, prog := sys.body call }) := by
    simp only [act, idle, if_true]
  have returns : sys.Returns (state.replace process
      { call := some call, prog := sys.body call }) process value last := by
    apply alone.returns
    · rfl
    · simp [State.replace]
    · simp [State.replace]
    · simp [State.replace]
    · exact quiescent.replace
  obtain ⟨steps, ended, stepped, isDone, isDb⟩ := returns.steps
  refine ⟨steps, ended, ?_, isDone, isDb⟩
  simpa [Action.calls, run, started] using stepped

end System

/-! ## Scripts -/

namespace Script

/-- From these committed data and this view of them the script returns the
value, and leaves that data and that view. -/
def Alone (sys : System Db Write Lock Call α)
    (script : Script Db Write Lock ε β) (db view : Db) (value : β)
    (last lastView : Db) : Prop :=
  ∀ state, sys.view db state = view →
    ∃ final, sys.Alone script.run db state (.ok value) last final ∧
      sys.view last final = lastView

namespace Alone

variable {sys : System Db Write Lock Call α}
variable {db view middle middleView last lastView : Db}

theorem pure (value : β) :
    Alone sys (Pure.pure value : Script Db Write Lock ε β) db view value db
      view :=
  fun state isView => ⟨state, .done _, isView⟩

theorem observe (query : Db → β) (remark : β → List Write) :
    Alone sys (Script.observe query remark : Script Db Write Lock ε β) db view
      (query view) db view := by
  intro state isView
  subst isView
  exact ⟨_, .query (.done _), rfl⟩

theorem read (query : Db → β) :
    Alone sys (Script.read query : Script Db Write Lock ε β) db view
      (query view) db view :=
  observe query _

/-- A statement, whose writes at once do not interfere with those that are
pending. -/
theorem execAtOnce {statement : Statement Db Write Lock β}
    (effect : Effect Write Lock β)
    (ran : statement view view .none = some effect)
    (aside : ∀ writes, sys.schema.applyAll writes
        (sys.schema.applyAll effect.atOnce db) =
      sys.schema.applyAll effect.atOnce (sys.schema.applyAll writes db)) :
    Alone sys (Script.exec statement : Script Db Write Lock ε β) db view
      effect.result (sys.schema.applyAll effect.atOnce db)
      (sys.schema.applyAll effect.writes
        (sys.schema.applyAll effect.atOnce view)) := by
  intro state isView
  subst isView
  refine ⟨_, .exec effect ran (.done _), ?_⟩
  change sys.schema.applyAll (state.pending ++ effect.writes) _ = _
  rw [Schema.applyAll_append, aside state.pending]
  rfl

theorem exec {statement : Statement Db Write Lock β}
    (effect : Effect Write Lock β)
    (ran : statement view view .none = some effect)
    (transactional : effect.atOnce = []) :
    Alone sys (Script.exec statement : Script Db Write Lock ε β) db view
      effect.result db (sys.schema.applyAll effect.writes view) := by
  have alone : Alone sys (Script.exec statement : Script Db Write Lock ε β)
      db view effect.result (sys.schema.applyAll effect.atOnce db)
      (sys.schema.applyAll effect.writes
        (sys.schema.applyAll effect.atOnce view)) :=
    execAtOnce effect ran (by simp [transactional])
  simpa [transactional] using alone

theorem commit :
    Alone sys (Script.commit : Script Db Write Lock ε Unit) db view () view
      view := by
  intro state isView
  subst isView
  exact ⟨_, .commit (.done _), rfl⟩

theorem rollback :
    Alone sys (Script.rollback : Script Db Write Lock ε Unit) db view () db
      db :=
  fun _ _ => ⟨_, .rollback (.done _), rfl⟩

theorem bind {begun : Script Db Write Lock ε γ}
    {next : γ → Script Db Write Lock ε β} {found : γ} {value : β}
    (begins : Alone sys begun db view found middle middleView)
    (rest : Alone sys (next found) middle middleView value last lastView) :
    Alone sys (begun >>= next) db view value last lastView := by
  intro state isView
  obtain ⟨between, first, isMiddle⟩ := begins state isView
  obtain ⟨final, second, isLast⟩ := rest between isMiddle
  refine ⟨final, ?_, isLast⟩
  exact System.Alone.bind (ExceptT.bindCont next) first second

theorem map {first : Script Db Write Lock ε γ} {result : γ → β} {value : γ}
    (alone : Alone sys first db view value last lastView) :
    Alone sys (result <$> first) db view (result value) last lastView := by
  intro state isView
  obtain ⟨final, ran, isLast⟩ := alone state isView
  refine ⟨final, ?_, isLast⟩
  exact System.Alone.bind _ ran (.done (Except.ok (result value)))

/-- What the body has not committed is lost. -/
theorem session {body : Script Db Write Lock ε β} {value : β}
    (alone : Alone sys body db view value last lastView) :
    Alone sys (Script.session body) db view value last last := by
  intro state isView
  obtain ⟨final, ran, isLast⟩ := alone state isView
  refine ⟨final.rolledBack, ?_, rfl⟩
  exact System.Alone.bind (fun result => .rollback (.done result)) ran
    (.rollback (.done _))

theorem quietly {body : Script Db Write Lock ε β} {value : β}
    (alone : Alone sys body db view value last lastView) :
    Alone sys (Script.quietly body) db view () last lastView := by
  intro state isView
  obtain ⟨final, ran, isLast⟩ := alone state isView
  refine ⟨final, ?_, isLast⟩
  exact System.Alone.bind (fun _ => .done (Except.ok ())) ran (.done _)

end Alone

/-! ## Exceptions -/

/-- From these committed data and this view of them the script raises the
exception, and leaves that data and that view. -/
def Raises (sys : System Db Write Lock Call α)
    (script : Script Db Write Lock ε β) (db view : Db) (exception : ε)
    (last lastView : Db) : Prop :=
  ∀ state, sys.view db state = view →
    ∃ final, sys.Alone script.run db state (.error exception) last final ∧
      sys.view last final = lastView

namespace Raises

variable {sys : System Db Write Lock Call α}
variable {db view middle middleView last lastView : Db} {exception : ε}

theorem raise :
    Raises sys (Script.raise exception : Script Db Write Lock ε β) db view
      exception db view :=
  fun state isView => ⟨state, .done _, isView⟩

theorem bind {begun : Script Db Write Lock ε γ}
    {next : γ → Script Db Write Lock ε β}
    (raises : Raises sys begun db view exception last lastView) :
    Raises sys (begun >>= next) db view exception last lastView := by
  intro state isView
  obtain ⟨final, ran, isLast⟩ := raises state isView
  exact ⟨final, System.Alone.bind (ExceptT.bindCont next) ran (.done _), isLast⟩

theorem after {begun : Script Db Write Lock ε γ}
    {next : γ → Script Db Write Lock ε β} {found : γ}
    (begins : Alone sys begun db view found middle middleView)
    (raises : Raises sys (next found) middle middleView exception last
      lastView) : Raises sys (begun >>= next) db view exception last
      lastView := by
  intro state isView
  obtain ⟨between, first, isMiddle⟩ := begins state isView
  obtain ⟨final, second, isLast⟩ := raises between isMiddle
  exact ⟨final, System.Alone.bind (ExceptT.bindCont next) first second, isLast⟩

theorem session {body : Script Db Write Lock ε β}
    (raises : Raises sys body db view exception last lastView) :
    Raises sys (Script.session body) db view exception last last := by
  intro state isView
  obtain ⟨final, ran, isLast⟩ := raises state isView
  refine ⟨final.rolledBack, ?_, rfl⟩
  exact System.Alone.bind (fun result => .rollback (.done result)) ran
    (.rollback (.done _))

end Raises

/-- The script returns or raises, and leaves these committed data. -/
def Concludes (sys : System Db Write Lock Call α)
    (script : Script Db Write Lock ε β) (db view last : Db) : Prop :=
  ∃ result : Except ε β, ∀ state, sys.view db state = view →
    ∃ final, sys.Alone script.run db state result last final

namespace Concludes

variable {sys : System Db Write Lock Call α}
variable {db view middle middleView last lastView : Db}

theorem returns {script : Script Db Write Lock ε β} {value : β}
    (alone : Alone sys script db view value last lastView) :
    Concludes sys script db view last := by
  refine ⟨.ok value, fun state isView => ?_⟩
  obtain ⟨final, ran, _⟩ := alone state isView
  exact ⟨final, ran⟩

theorem raises {script : Script Db Write Lock ε β} {exception : ε}
    (raises : Raises sys script db view exception last lastView) :
    Concludes sys script db view last := by
  refine ⟨.error exception, fun state isView => ?_⟩
  obtain ⟨final, ran, _⟩ := raises state isView
  exact ⟨final, ran⟩

theorem after {begun : Script Db Write Lock ε γ}
    {next : γ → Script Db Write Lock ε β} {found : γ}
    (begins : Alone sys begun db view found middle middleView)
    (rest : Concludes sys (next found) middle middleView last) :
    Concludes sys (begun >>= next) db view last := by
  obtain ⟨result, concludes⟩ := rest
  refine ⟨result, fun state isView => ?_⟩
  obtain ⟨between, first, isMiddle⟩ := begins state isView
  obtain ⟨final, second⟩ := concludes between isMiddle
  exact ⟨final, System.Alone.bind (ExceptT.bindCont next) first second⟩

theorem session {body : Script Db Write Lock ε β}
    (concludes : Concludes sys body db view last) :
    Concludes sys (Script.session body) db view last := by
  obtain ⟨result, ends⟩ := concludes
  refine ⟨result, fun state isView => ?_⟩
  obtain ⟨final, ran⟩ := ends state isView
  refine ⟨final.rolledBack, ?_⟩
  exact System.Alone.bind (fun result => .rollback (.done result)) ran
    (.rollback (.done _))

theorem map {first : Script Db Write Lock ε γ} (into : γ → β)
    (concludes : Concludes sys first db view last) :
    Concludes sys (into <$> first) db view last := by
  obtain ⟨result, ends⟩ := concludes
  refine ⟨result.map into, fun state isView => ?_⟩
  obtain ⟨final, ran⟩ := ends state isView
  refine ⟨final, System.Alone.bind _ ran ?_⟩
  cases result with
  | ok value => exact .done _
  | error exception => exact .done _

end Concludes

end Script

end Sqlery.ReadCommitted
