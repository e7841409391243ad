import Sqlery.ReadCommitted.Soundness

/-!
# What one action does

The inversion of `System.act`, and with it a rule for facts about whole runs:
an action is the commit of one session, or it leaves the record of committed
transactions alone and moves the data only by writes that take effect at once.
-/

namespace Sqlery.ReadCommitted

/-- A transaction that was committed: the data before and after it, and what it
wrote. -/
structure Committed (Db Write Call : Type) where
  call : Call
  before : Db
  after : Db
  writes : List Write

namespace System

variable {Db Write Lock Call α : Type} {n : Nat}
variable (sys : System Db Write Lock Call α)

/-- The session that commits with an action, and the call it runs. -/
def committing (state : State Db Write Lock Call α n) :
    Action Write Call n → Option (Fin n × Call)
  | .step process =>
      match (state.session process).prog with
      | .commit _ => (state.session process).call.map fun call =>
          (process, call)
      | _ => none
  | _ => none

/-- The session that queries with an action, and the remarks it leaves. -/
def remarking (state : State Db Write Lock Call α n) :
    Action Write Call n → Option (Fin n × List Write)
  | .step process =>
      match (state.session process).prog with
      | .query read remark _ => some (process,
          remark (read (sys.view state.db (state.session process).state)))
      | _ => none
  | _ => none

/-- What one step has committed. -/
def commits (state next : State Db Write Lock Call α n) :
    List (Committed Db Write Call) :=
  (next.journal.drop state.journal.length).map fun entry =>
    { call := entry.1, before := state.db, after := next.db
      writes := entry.2 }

/-- States reached by allowed actions, with everything that was committed on
the way. -/
inductive Traces
    (allowed : State Db Write Lock Call α n → Action Write Call n → Prop)
    (start : State Db Write Lock Call α n) :
    State Db Write Lock Call α n → List (Committed Db Write Call) → Prop where
  | refl : Traces allowed start start []
  | step {state next : State Db Write Lock Call α n}
      {action : Action Write Call n} {trace : List (Committed Db Write Call)} :
      Traces allowed start state trace → allowed state action →
      sys.act state action = some next →
      Traces allowed start next (trace ++ commits state next)

variable {sys} in
theorem Traces.reaches
    {allowed : State Db Write Lock Call α n → Action Write Call n → Prop}
    {first last : State Db Write Lock Call α n}
    {trace : List (Committed Db Write Call)}
    (run : sys.Traces allowed first last trace) :
    sys.Reaches allowed first last := by
  induction run with
  | refl => exact .refl
  | step _ permitted taken ih => exact .step ih permitted taken

/-- The run of a list of actions that all pass a check, with what it
commits. -/
def traceWhile (check : State Db Write Lock Call α n →
    Action Write Call n → Bool)
    (state : State Db Write Lock Call α n)
    (trace : List (Committed Db Write Call)) :
    List (Action Write Call n) →
      Option (State Db Write Lock Call α n × List (Committed Db Write Call))
  | [] => some (state, trace)
  | action :: actions =>
      if check state action then
        match sys.act state action with
        | some next =>
            traceWhile check next (trace ++ commits state next) actions
        | none => none
      else none

theorem traces_of_traceWhile
    {check : State Db Write Lock Call α n → Action Write Call n → Bool}
    {allowed : State Db Write Lock Call α n → Action Write Call n → Prop}
    (sound : ∀ state action, check state action = true →
      allowed state action)
    {actions : List (Action Write Call n)}
    {first state last : State Db Write Lock Call α n}
    {trace whole : List (Committed Db Write Call)}
    (before : sys.Traces allowed first state trace)
    (ran : sys.traceWhile check state trace actions = some (last, whole)) :
    sys.Traces allowed first last whole := by
  induction actions generalizing state trace with
  | nil =>
      cases ran
      exact before
  | cons action actions ih =>
      simp only [traceWhile] at ran
      split at ran
      · rename_i checked
        split at ran
        · rename_i next taken
          exact ih (.step before (sound _ _ checked) taken) ran
        · cases ran
      · cases ran

/-- The session did nothing another session or the record could tell: it may
have read, written privately, rolled back or crashed. -/
structure Session.Rests (before after : Session Db Write Lock Call α) :
    Prop where
  call : after.call = before.call
  written : after.state.written = before.state.written
  noted : after.state.noted = before.state.noted
  idle : before.prog.idle = true → after.prog.idle = true

theorem Session.Rests.refl (session : Session Db Write Lock Call α) :
    Session.Rests session session :=
  ⟨rfl, rfl, rfl, id⟩

end System

namespace Setting

variable {Db Write Lock Call α : Type} {n : Nat}
variable {C : Setting Db Write Lock Call α}
variable {post : Call → α → Db → Local Write Lock → Prop}
variable {state next : State Db Write Lock Call α n}
variable {action : Action Write Call n}

/-- One session committed. -/
structure Commits (C : Setting Db Write Lock Call α)
    (state next : State Db Write Lock Call α n)
    (action : Action Write Call n) (process : Fin n) (call : Call) :
    Prop where
  isStep : action = .step process
  committing : System.committing state action = some (process, call)
  isCall : (state.session process).call = some call
  isCommit : ∃ rest, (state.session process).prog = .commit rest
  promised : (C.promise call).commits state.db (state.session process).state
  guarded : Guarded C.sys.schema (state.session process).state
  db : next.db =
    C.sys.schema.applyAll (state.session process).state.pending state.db
  journal : next.journal = state.journal ++
    [(call, (state.session process).state.pending)]
  call : (next.session process).call = some call
  committed : (next.session process).state =
    (state.session process).state.committed
  others : ∀ other, other ≠ process →
    next.session other = state.session other

/-- A change of the data that is not a commit. -/
inductive Drifts (C : Setting Db Write Lock Call α)
    (action : Action Write Call n) (first second : Db) : Prop where
  | same : second = first → Drifts C action first second
  | instant (call : Call) (local_ : Local Write Lock) (writes : List Write) :
      (C.promise call).instant first local_ writes →
      second = C.sys.schema.applyAll writes first →
      Drifts C action first second
  | ambient (write : Write) : action = .ambient write →
      C.sys.ambient write = true →
      second = C.sys.schema.apply write first → Drifts C action first second

/-- What happened to one session, when none committed. -/
inductive Goes (C : Setting Db Write Lock Call α)
    (state : State Db Write Lock Call α n) (action : Action Write Call n)
    (process : Fin n) (after : Session Db Write Lock Call α) : Prop where
  | rests : System.Session.Rests (state.session process) after →
      Goes C state action process after
  | remarks (call : Call) (remarks : List Write) :
      C.sys.remarking state action = some (process, remarks) →
      (state.session process).call = some call →
      (C.promise call).notes state.db (state.session process).state remarks →
      after.call = some call →
      after.state = (state.session process).state.note remarks →
      (state.session process).prog.idle = false →
      Goes C state action process after
  | starts (call : Call) : action = .start process call →
      after.call = some call → after.state = {} →
      Goes C state action process after

/-- No session committed. -/
structure Quiet (C : Setting Db Write Lock Call α)
    (state next : State Db Write Lock Call α n)
    (action : Action Write Call n) : Prop where
  committing : System.committing state action = none
  db : Drifts C action state.db next.db
  journal : next.journal = state.journal
  sessions : ∀ process, Goes C state action process (next.session process)

theorem Commits.commits {process : Fin n} {call : Call}
    (committed : Commits C state next action process call) :
    System.commits state next =
      [{ call, before := state.db, after := next.db
         writes := (state.session process).state.pending }] := by
  simp [System.commits, committed.journal]

theorem Quiet.commits (quiet : Quiet C state next action) :
    System.commits state next = [] := by
  simp [System.commits, quiet.journal]

/-- A commit starts no call. -/
theorem Commits.made {made : Call → Prop} {process : Fin n} {call : Call}
    (committed : Commits C state next action process call)
    (before : ∀ process call, (state.session process).call = some call →
      made call) :
    ∀ process call, (next.session process).call = some call → made call := by
  intro other otherCall isOther
  by_cases same : other = process
  · subst same
    rw [committed.call] at isOther
    cases isOther
    exact before other call committed.isCall
  · rw [committed.others other same] at isOther
    exact before other otherCall isOther

/-- The calls under way are those that were started. -/
theorem Quiet.made {made : Call → Prop}
    (quiet : Quiet C state next action)
    (starts : ∀ process call, action = .start process call → made call)
    (before : ∀ process call, (state.session process).call = some call →
      made call) :
    ∀ process call, (next.session process).call = some call → made call := by
  intro process call isCall
  cases quiet.sessions process with
  | rests rests =>
      apply before process call
      rw [← rests.call]
      exact isCall
  | remarks other remarks isRemark isOther promised stays grows running =>
      apply before process call
      rw [isOther, ← stays]
      exact isCall
  | starts other isStart isOther initial =>
      rw [isOther] at isCall
      cases isCall
      exact starts process _ isStart

theorem quiet_of_replace {process : Fin n} {db : Db}
    {session : Session Db Write Lock Call α}
    (committing : System.committing state action = none)
    (drifts : Drifts C action state.db db)
    (goes : Goes C state action process session) :
    Quiet C state (State.replace { state with db } process session)
      action where
  committing := committing
  db := drifts
  journal := rfl
  sessions := by
    intro other
    by_cases same : other = process
    · subst same
      simpa [State.replace] using goes
    · simp only [State.replace, Function.update_of_ne same]
      exact .rests (.refl _)

/-- An action is a commit or it is quiet. -/
theorem Good.act_cases (good : C.Good post state)
    (taken : C.sys.act state action = some next) :
    (∃ process call, C.Commits state next action process call) ∨
      C.Quiet state next action := by
  cases action with
  | start process call =>
      simp only [System.act] at taken
      split at taken
      · cases taken
        exact Or.inr (quiet_of_replace rfl (.same rfl)
          (.starts call rfl rfl rfl))
      · cases taken
  | crash process =>
      cases taken
      exact Or.inr (quiet_of_replace rfl (.same rfl)
        (.rests ⟨rfl, rfl, rfl, fun _ => rfl⟩))
  | ambient write =>
      simp only [System.act] at taken
      split at taken
      · rename_i isAmbient
        cases taken
        exact Or.inr ⟨rfl, .ambient write rfl isAmbient rfl, rfl,
          fun process => .rests (.refl _)⟩
      · cases taken
  | step process =>
      have secure := good.secure process
      simp only [System.act] at taken
      unfold System.advance at taken
      simp only at taken
      split at taken
      · cases taken
      · cases taken
      · rename_i β read remark rest isQuery
        cases taken
        obtain ⟨_, call, isCall, _⟩ := secure.safe (by simp [isQuery])
          (Or.inr (by simp [isQuery, Prog.isExec]))
        refine Or.inr (quiet_of_replace (by simp [System.committing, isQuery])
          (.same rfl) (.remarks call _ ?_ isCall
            (good.atQuery isCall isQuery) isCall rfl ?_))
        · simp [System.remarking, isQuery]
        · simp [isQuery, Prog.idle]
      · rename_i β statement rest isExec
        have noCommit : System.committing state (.step process) = none := by
          simp [System.committing, isExec]
        split at taken
        · cases taken
          exact Or.inr (quiet_of_replace noCommit (.same rfl)
            (.rests ⟨rfl, rfl, rfl, id⟩))
        · rename_i snapshot isSnapshot
          obtain ⟨call, before, middle, isCall, safe, earlier, fine, later,
            same⟩ := secure.atSnapshot (by simp [isExec]) isSnapshot
          split at taken
          · cases taken
          · rename_i effect ran
            split at taken
            · cases taken
            · cases taken
              rw [isExec] at safe
              rw [same] at ran
              have step := safe middle state.db earlier fine later good.inv
                _ effect ran
              refine Or.inr (quiet_of_replace noCommit
                (.instant call _ _ step.1 rfl)
                (.rests ⟨rfl, rfl, rfl, ?_⟩))
              simp [isExec, Prog.idle]
      · rename_i rest isCommit
        cases taken
        obtain ⟨_, call, isCall, _⟩ := secure.safe (by simp [isCommit])
          (Or.inr (by simp [isCommit, Prog.isExec]))
        refine Or.inl ⟨process, call, ?_⟩
        constructor
        · rfl
        · simp [System.committing, isCommit, isCall]
        · exact isCall
        · exact ⟨rest, isCommit⟩
        · exact good.atCommit isCall isCommit
        · exact good.guarded process
        · rfl
        · simp [State.replace, isCall]
        · simp [State.replace, isCall]
        · simp [State.replace]
        · intro other different
          simp [State.replace, different]
      · rename_i rest isRollback
        cases taken
        refine Or.inr (quiet_of_replace
          (by simp [System.committing, isRollback]) (.same rfl)
          (.rests ⟨rfl, rfl, rfl, ?_⟩))
        simp [isRollback, Prog.idle]

/-- The invariant rule for runs: a property of the start that every allowed
action keeps holds of every state that is reached. -/
theorem VerifiedFor.induct {holds : State Db Write Lock Call α n → Prop}
    {allowed : State Db Write Lock Call α n → Action Write Call n → Prop}
    {made : Call → Prop} {db : Db} (verified : C.VerifiedFor made post)
    (starts : ∀ state process call, allowed state (.start process call) →
      made call)
    (inv : C.inv db) (start : holds (System.initial db))
    (step : ∀ state action next, C.Good post state → C.Good post next →
      holds state → allowed state action →
      C.sys.act state action = some next → holds next)
    (reached : C.sys.Reaches allowed (System.initial db) state) :
    holds state := by
  induction reached with
  | refl => exact start
  | step before permitted taken ih =>
      exact step _ _ _ (verified.sound starts inv before)
        (verified.sound starts inv (.step before permitted taken)) ih
        permitted taken

/-- The rule for runs and what they have committed. -/
theorem VerifiedFor.inductTrace
    {holds : State Db Write Lock Call α n → List (Committed Db Write Call) →
      Prop}
    {allowed : State Db Write Lock Call α n → Action Write Call n → Prop}
    {made : Call → Prop} {db : Db} {trace : List (Committed Db Write Call)}
    (verified : C.VerifiedFor made post)
    (starts : ∀ state process call, allowed state (.start process call) →
      made call)
    (inv : C.inv db) (start : holds (System.initial db) [])
    (step : ∀ state action next trace, C.Good post state →
      C.Good post next → holds state trace → allowed state action →
      C.sys.act state action = some next →
      holds next (trace ++ System.commits state next))
    (run : C.sys.Traces allowed (System.initial db) state trace) :
    holds state trace := by
  induction run with
  | refl => exact start
  | step before permitted taken ih =>
      exact step _ _ _ _ (verified.sound starts inv before.reaches)
        (verified.sound starts inv (.step before.reaches permitted taken)) ih
        permitted taken

theorem Verified.induct {holds : State Db Write Lock Call α n → Prop}
    {allowed : State Db Write Lock Call α n → Action Write Call n → Prop}
    {db : Db} (verified : C.Verified post) (inv : C.inv db)
    (start : holds (System.initial db))
    (step : ∀ state action next, C.Good post state → holds state →
      allowed state action → C.sys.act state action = some next → holds next)
    (reached : C.sys.Reaches allowed (System.initial db) state) :
    holds state :=
  verified.for.induct (fun _ _ _ _ => trivial) inv start
    (fun state action next good _ => step state action next good) reached

end Setting

end Sqlery.ReadCommitted
