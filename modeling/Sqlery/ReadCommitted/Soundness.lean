import Sqlery.ReadCommitted.Logic

/-!
# Soundness of the rules

If the body of every call satisfies its triple from an empty transaction,
then in every state the system reaches the invariant holds, the locks of
different sessions are compatible, every session is in the middle of a safe
program, and each commit keeps its promise.
-/

namespace Sqlery.ReadCommitted

namespace Setting

variable {Db Write Lock Call α : Type} {n : Nat}
variable {C : Setting Db Write Lock Call α}

variable (C) in
/-- The session is at a point of its call from which the rest is safe.  While
a statement is in progress the point is the moment before its snapshot. -/
def Secure (post : Call → α → Db → Local Write Lock → Prop) (db : Db)
    (session : Session Db Write Lock Call α) : Prop :=
  match session.call with
  | none => session.prog = .halt
  | some call =>
      match session.snapshot with
      | none => C.Safe call (post call) session.prog db session.state
      | some snapshot => session.prog.isExec = true ∧ ∃ before middle,
          C.Safe call (post call) session.prog before session.state ∧
          C.Env session.state.held before middle ∧ C.inv middle ∧
          C.Env session.state.held middle db ∧
          snapshot = C.sys.view middle session.state

variable (C) in
structure Good (post : Call → α → Db → Local Write Lock → Prop)
    (state : State Db Write Lock Call α n) : Prop where
  inv : C.inv state.db
  secure : ∀ process, C.Secure post state.db (state.session process)
  guarded : ∀ process,
    Guarded C.sys.schema (state.session process).state
  apart : ∀ process other, process ≠ other →
    Apart C.sys.schema (state.session process).state.held
      (state.session other).state.held

variable {post : Call → α → Db → Local Write Lock → Prop}

theorem Secure.env {first second : Db}
    {session : Session Db Write Lock Call α}
    (secure : C.Secure post first session)
    (changed : C.Env session.state.held first second) :
    C.Secure post second session := by
  unfold Secure at secure ⊢
  split at secure
  · exact secure
  · split at secure
    · exact secure.env changed
    · obtain ⟨isExec, before, middle, safe, earlier, good, later, taken⟩ :=
        secure
      exact ⟨isExec, before, middle, safe, earlier, good,
        later.trans changed, taken⟩

/-- Only one session and the database change: the others keep their point
when the change is one their locks allow. -/
theorem Good.replace {state : State Db Write Lock Call α n}
    (good : C.Good post state) (process : Fin n) {db : Db}
    {journal : List (Call × List Write)}
    {session : Session Db Write Lock Call α}
    (inv : C.inv db)
    (changed : ∀ other, other ≠ process →
      C.Env (state.session other).state.held state.db db)
    (secure : C.Secure post db session)
    (guarded : Guarded C.sys.schema session.state)
    (apart : ∀ other, other ≠ process →
      Apart C.sys.schema (state.session other).state.held
        session.state.held) :
    C.Good post
      (State.replace { state with db, journal } process session) := by
  constructor
  · exact inv
  · intro other
    by_cases same : other = process
    · subst same
      simpa [State.replace] using secure
    · simpa [State.replace, same] using
        (good.secure other).env (changed other same)
  · intro other
    by_cases same : other = process
    · subst same
      simpa [State.replace] using guarded
    · simpa [State.replace, same] using good.guarded other
  · intro left right different
    by_cases leftSame : left = process
    · subst leftSame
      simpa [State.replace, different.symm] using
        (apart right different.symm).symm
    · by_cases rightSame : right = process
      · subst rightSame
        simpa [State.replace, leftSame] using apart left leftSame
      · simpa [State.replace, leftSame, rightSame] using
          good.apart left right different

theorem Secure.safe {db : Db} {session : Session Db Write Lock Call α}
    (secure : C.Secure post db session) (running : session.prog ≠ .halt)
    (between : session.snapshot = none ∨ session.prog.isExec = false) :
    session.snapshot = none ∧ ∃ call, session.call = some call ∧
      C.Safe call (post call) session.prog db session.state := by
  unfold Secure at secure
  split at secure
  · exact (running secure).elim
  · rename_i call isCall
    split at secure
    · rename_i none
      exact ⟨none, call, isCall, secure⟩
    · rename_i snapshot taken
      rcases between with none | notExec
      · rw [taken] at none
        cases none
      · rw [secure.1] at notExec
        cases notExec

theorem Secure.atSnapshot {db : Db} {session : Session Db Write Lock Call α}
    {snapshot : Db} (secure : C.Secure post db session)
    (running : session.prog ≠ .halt)
    (taken : session.snapshot = some snapshot) :
    ∃ call before middle, session.call = some call ∧
      C.Safe call (post call) session.prog before session.state ∧
      C.Env session.state.held before middle ∧ C.inv middle ∧
      C.Env session.state.held middle db ∧
      snapshot = C.sys.view middle session.state := by
  unfold Secure at secure
  split at secure
  · exact (running secure).elim
  · rename_i call isCall
    rw [taken] at secure
    obtain ⟨_, before, middle, safe, earlier, good, later, same⟩ := secure
    exact ⟨call, before, middle, isCall, safe, earlier, good, later, same⟩

theorem secure_of_safe {db : Db} {session : Session Db Write Lock Call α}
    {call : Call} (isCall : session.call = some call)
    (between : session.snapshot = none)
    (safe : C.Safe call (post call) session.prog db session.state) :
    C.Secure post db session := by
  unfold Secure
  rw [isCall]
  simp only
  rw [between]
  exact safe

theorem apart_of_free {state : State Db Write Lock Call α n}
    {process other : Fin n} {locks : List Lock}
    (free : locks.any (C.sys.others state process).busy = false)
    (different : other ≠ process) :
    Apart C.sys.schema (state.session other).state.held locks := by
  intro theirs theirsMember mine mineMember
  rw [List.any_eq_false] at free
  have idle := free mine mineMember
  simp only [System.others, Bool.not_eq_true, List.any_eq_false,
    List.mem_finRange, true_implies] at idle
  have unlocked := idle other
  simp only [ne_eq, different, not_false_eq_true, decide_true,
    Bool.true_and, Bool.not_eq_true, List.any_eq_false] at unlocked
  rw [C.sys.schema.conflicts_symm]
  simpa using unlocked theirs theirsMember

theorem Good.atCommit {state : State Db Write Lock Call α n}
    {process : Fin n} {call : Call} {next : Prog Db Write Lock α}
    (good : C.Good post state)
    (isCall : (state.session process).call = some call)
    (commits : (state.session process).prog = .commit next) :
    (C.promise call).commits state.db (state.session process).state := by
  obtain ⟨_, found, isFound, safe⟩ := (good.secure process).safe
    (by simp [commits]) (Or.inr (by simp [commits, Prog.isExec]))
  rw [isCall] at isFound
  cases isFound
  rw [commits] at safe
  exact (safe state.db (.refl _) good.inv).1

theorem Good.atQuery {state : State Db Write Lock Call α n}
    {process : Fin n} {call : Call} {β : Type} {read : Db → β}
    {remark : β → List Write} {next : β → Prog Db Write Lock α}
    (good : C.Good post state)
    (isCall : (state.session process).call = some call)
    (queries : (state.session process).prog = .query read remark next) :
    (C.promise call).notes state.db (state.session process).state
      (remark (read (C.sys.view state.db (state.session process).state))) := by
  obtain ⟨_, found, isFound, safe⟩ := (good.secure process).safe
    (by simp [queries]) (Or.inr (by simp [queries, Prog.isExec]))
  rw [isCall] at isFound
  cases isFound
  rw [queries] at safe
  exact (safe state.db (.refl _) good.inv).1

/-- A session at rest has returned a value its postcondition allows. -/
theorem Good.atReturn {state : State Db Write Lock Call α n}
    {process : Fin n} {call : Call} {value : α}
    (good : C.Good post state)
    (isCall : (state.session process).call = some call)
    (returned : (state.session process).prog = .done value) :
    post call value state.db (state.session process).state := by
  obtain ⟨_, found, isFound, safe⟩ := (good.secure process).safe
    (by simp [returned]) (Or.inr (by simp [returned, Prog.isExec]))
  rw [isCall] at isFound
  cases isFound
  rw [returned] at safe
  exact safe state.db (.refl _) good.inv

theorem Good.advance {state next : State Db Write Lock Call α n}
    {process : Fin n} (good : C.Good post state)
    (taken : C.sys.advance state process = some next) :
    C.Good post next := by
  have secure := good.secure process
  have guarded := good.guarded process
  have apart : ∀ other, other ≠ process →
      Apart C.sys.schema (state.session other).state.held
        (state.session process).state.held :=
    fun other different => good.apart other process different
  unfold System.advance at taken
  simp only at taken
  split at taken
  · cases taken
  · cases taken
  · rename_i β read remark rest isQuery
    cases taken
    obtain ⟨between, call, isCall, safe⟩ := secure.safe
      (by simp [isQuery]) (Or.inr (by simp [isQuery, Prog.isExec]))
    rw [isQuery] at safe
    refine good.replace process good.inv (fun _ _ => .refl _) ?_
      guarded apart
    exact secure_of_safe isCall between
      (safe state.db (.refl _) good.inv).2
  · rename_i β statement rest isExec
    split at taken
    · rename_i between
      cases taken
      obtain ⟨_, call, isCall, safe⟩ := secure.safe
        (by simp [isExec]) (Or.inl between)
      refine good.replace process good.inv (fun _ _ => .refl _) ?_
        guarded apart
      unfold Secure
      simp only [isCall]
      exact ⟨by simp [isExec, Prog.isExec], state.db, state.db, safe,
        .refl _, good.inv, .refl _, rfl⟩
    · rename_i snapshot isSnapshot
      obtain ⟨call, before, middle, isCall, safe, earlier, fine, later,
        same⟩ := secure.atSnapshot (by simp [isExec]) isSnapshot
      split at taken
      · cases taken
      · rename_i effect ran
        split at taken
        · cases taken
        · rename_i free
          rw [Bool.not_eq_true] at free
          cases taken
          rw [isExec] at safe
          rw [same] at ran
          have step := safe middle state.db earlier fine later good.inv
            _ effect ran
          have apartNew : ∀ other, other ≠ process →
              Apart C.sys.schema (state.session other).state.held
                ((state.session process).state.extend effect.writes
                  (C.sys.acquired effect)).held := by
            intro other different
            exact (apart other different).append
              (apart_of_free free different)
          refine good.replace process
            (C.instant_inv _ _ _ _ good.inv step.1) ?_ ?_
            (guarded_acquired guarded effect) apartNew
          · intro other different
            exact .instant (.refl _) good.inv step.1
              (apartNew other different)
          · exact secure_of_safe isCall rfl step.2
  · rename_i rest isCommit
    cases taken
    obtain ⟨between, call, isCall, safe⟩ := secure.safe
      (by simp [isCommit]) (Or.inr (by simp [isCommit, Prog.isExec]))
    rw [isCommit] at safe
    have step := safe state.db (.refl _) good.inv
    refine good.replace process
      (C.commit_inv _ _ _ good.inv guarded step.1) ?_ ?_
      (guarded_committed _) (fun _ _ => Apart.nil _ _)
    · intro other different
      exact .commit (.refl _) good.inv guarded step.1
        (apart other different)
    · exact secure_of_safe isCall between step.2
  · rename_i rest isRollback
    cases taken
    obtain ⟨between, call, isCall, safe⟩ := secure.safe
      (by simp [isRollback]) (Or.inr (by simp [isRollback, Prog.isExec]))
    rw [isRollback] at safe
    refine good.replace process good.inv (fun _ _ => .refl _) ?_
      (guarded_rolledBack _) (fun _ _ => Apart.nil _ _)
    exact secure_of_safe isCall between (safe state.db (.refl _) good.inv)

variable (C) in
/-- The body of every call satisfies its triple from an empty transaction. -/
def Verified (post : Call → α → Db → Local Write Lock → Prop) : Prop :=
  ∀ call, C.Triple call (fun _ state => state = {}) (C.sys.body call)
    (post call)

variable (C) in
/-- The same for the calls that are made. -/
def VerifiedFor (made : Call → Prop)
    (post : Call → α → Db → Local Write Lock → Prop) : Prop :=
  ∀ call, made call →
    C.Triple call (fun _ state => state = {}) (C.sys.body call) (post call)

theorem Verified.for (verified : C.Verified post) :
    C.VerifiedFor (fun _ => True) post :=
  fun call _ => verified call

theorem Good.act {state next : State Db Write Lock Call α n}
    {action : Action Write Call n} {made : Call → Prop}
    (verified : C.VerifiedFor made post)
    (starts : ∀ process call, action = .start process call → made call)
    (good : C.Good post state)
    (taken : C.sys.act state action = some next) : C.Good post next := by
  cases action with
  | start process call =>
      simp only [System.act] at taken
      split at taken
      · cases taken
        refine good.replace process good.inv (fun _ _ => .refl _) ?_ ?_
          (fun _ _ => Apart.nil _ _)
        · exact secure_of_safe rfl rfl
            (verified call (starts process call rfl) state.db {} good.inv
              (by simp [Guarded]) rfl)
        · simp [Guarded]
      · cases taken
  | step process => exact good.advance taken
  | crash process =>
      cases taken
      refine good.replace process good.inv (fun _ _ => .refl _) ?_
        (guarded_rolledBack _) (fun _ _ => Apart.nil _ _)
      unfold Secure
      cases (state.session process).call with
      | none => rfl
      | some call => trivial
  | ambient write =>
      simp only [System.act] at taken
      split at taken
      · rename_i isAmbient
        cases taken
        exact ⟨C.ambient_inv _ _ good.inv isAmbient,
          fun process => (good.secure process).env
            (.ambient (.refl _) good.inv isAmbient),
          good.guarded, good.apart⟩
      · cases taken

theorem good_initial {db : Db} (inv : C.inv db) :
    C.Good post (System.initial (n := n) db) where
  inv := inv
  secure := fun _ => rfl
  guarded := fun _ => by simp [System.initial, Guarded]
  apart := fun _ _ _ => by
    intro mine member
    simp [System.initial] at member

/-- Every state that is reached with verified calls is good. -/
theorem VerifiedFor.sound {db : Db} {state : State Db Write Lock Call α n}
    {allowed : State Db Write Lock Call α n → Action Write Call n → Prop}
    {made : Call → Prop} (verified : C.VerifiedFor made post)
    (starts : ∀ state process call, allowed state (.start process call) →
      made call)
    (inv : C.inv db)
    (reached : C.sys.Reaches allowed (System.initial db) state) :
    C.Good post state := by
  induction reached with
  | refl => exact good_initial inv
  | step _ permitted taken ih =>
      apply ih.act verified _ taken
      intro process call isStart
      subst isStart
      exact starts _ process call permitted

/-- Every state a verified system reaches is good. -/
theorem sound {db : Db} {state : State Db Write Lock Call α n}
    {allowed : State Db Write Lock Call α n → Action Write Call n → Prop}
    (verified : C.Verified post) (inv : C.inv db)
    (reached : C.sys.Reaches allowed (System.initial db) state) :
    C.Good post state :=
  verified.for.sound (fun _ _ _ _ => trivial) inv reached

end Setting

end Sqlery.ReadCommitted
