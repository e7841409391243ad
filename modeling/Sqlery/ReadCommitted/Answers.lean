import Sqlery.ReadCommitted.Footprint
import Sqlery.ReadCommitted.Watch

/-!
# What calls return

A run may be taken together with everything its calls have returned so far.
What a call's postcondition says of the data holds of them for the rest of the
run, if it is a fact that no session can undo.
-/

namespace Sqlery.ReadCommitted

namespace System

variable {Db Write Lock Call α : Type} {n : Nat}
variable (sys : System Db Write Lock Call α)

/-- What the call that ends with an action has returned. -/
def returned (next : State Db Write Lock Call α n)
    (action : Action Write Call n) : List (Call × α) :=
  match action.actor with
  | none => []
  | some process =>
      match (next.session process).call, (next.session process).prog with
      | some call, .done value => [(call, value)]
      | _, _ => []

/-- States reached by allowed actions, with everything that was returned on
the way. -/
inductive Answers
    (allowed : State Db Write Lock Call α n → Action Write Call n → Prop)
    (start : State Db Write Lock Call α n) :
    State Db Write Lock Call α n → List (Call × α) → Prop where
  | refl : Answers allowed start start []
  | step {state next : State Db Write Lock Call α n}
      {action : Action Write Call n} {answers : List (Call × α)} :
      Answers allowed start state answers → allowed state action →
      sys.act state action = some next →
      Answers allowed start next (answers ++ returned next action)

variable {sys}
variable {allowed : State Db Write Lock Call α n → Action Write Call n → Prop}

theorem Answers.reaches {first last : State Db Write Lock Call α n}
    {answers : List (Call × α)}
    (run : sys.Answers allowed first last answers) :
    sys.Reaches allowed first last := by
  induction run with
  | refl => exact .refl
  | step _ permitted taken ih => exact .step ih permitted taken

variable (sys) in
/-- The run of a list of actions that all pass a check, with what it
returns. -/
def answerWhile (check : State Db Write Lock Call α n →
    Action Write Call n → Bool)
    (state : State Db Write Lock Call α n) (answers : List (Call × α)) :
    List (Action Write Call n) →
      Option (State Db Write Lock Call α n × List (Call × α))
  | [] => some (state, answers)
  | action :: actions =>
      if check state action then
        match sys.act state action with
        | some next =>
            answerWhile check next (answers ++ returned next action) actions
        | none => none
      else none

theorem answers_of_answerWhile
    {check : State Db Write Lock Call α n → Action Write Call n → Bool}
    (sound : ∀ state action, check state action = true →
      allowed state action)
    {actions : List (Action Write Call n)}
    {first state last : State Db Write Lock Call α n}
    {answers whole : List (Call × α)}
    (before : sys.Answers allowed first state answers)
    (ran : sys.answerWhile check state answers actions = some (last, whole)) :
    sys.Answers allowed first last whole := by
  induction actions generalizing state answers with
  | nil =>
      cases ran
      exact before
  | cons action actions ih =>
      simp only [answerWhile] at ran
      split at ran
      · rename_i checked
        split at ran
        · rename_i next taken
          exact ih (.step before (sound _ _ checked) taken) ran
        · cases ran
      · cases ran

end System

namespace Setting

variable {Db Write Lock Call α β ε : Type} {n : Nat}
variable {C : Setting Db Write Lock Call α}
variable {post : Call → α → Db → Local Write Lock → Prop}
variable {state next : State Db Write Lock Call α n}
variable {action : Action Write Call n}

/-- What was returned satisfies the postcondition of its call. -/
theorem Good.returned (good : C.Good post next) {call : Call} {value : α}
    (member : (call, value) ∈ System.returned next action) :
    ∃ process, post call value next.db (next.session process).state := by
  simp only [System.returned] at member
  split at member
  · cases member
  · rename_i process isActor
    split at member
    · rename_i found result isCall isDone
      cases List.mem_singleton.mp member
      exact ⟨process, good.atReturn isCall isDone⟩
    · cases member

theorem Lasting.act {fact : Db → Prop} (lasting : C.Lasting fact)
    (good : C.Good post state)
    (taken : C.sys.act state action = some next) (holds : fact state.db) :
    fact next.db := by
  rcases good.act_cases taken with ⟨process, call, commits⟩ | quiet
  · rw [commits.db]
    exact lasting.commits call state.db _ good.inv commits.guarded
      commits.promised holds
  · cases quiet.db with
    | same isSame =>
        rw [isSame]
        exact holds
    | instant call local_ writes promised isAfter =>
        rw [isAfter]
        exact lasting.instant call state.db local_ writes good.inv promised
          holds
    | ambient write isAction isAmbient isAfter =>
        rw [isAfter]
        exact lasting.ambient write state.db good.inv isAmbient holds

/-- A lasting fact that calls return with holds of every answer. -/
theorem VerifiedFor.answers {fact : Call → α → Db → Prop}
    {allowed : State Db Write Lock Call α n → Action Write Call n → Prop}
    {made : Call → Prop} {db : Db} {answers : List (Call × α)}
    (verified : C.VerifiedFor made post)
    (starts : ∀ state process call, allowed state (.start process call) →
      made call)
    (inv : C.inv db) (lasting : ∀ call value, C.Lasting (fact call value))
    (returns : ∀ call value db state, post call value db state →
      fact call value db)
    (run : C.sys.Answers allowed (System.initial db) state answers) :
    ∀ call value, (call, value) ∈ answers → fact call value state.db := by
  induction run with
  | refl =>
      intro call value member
      cases member
  | step before permitted taken ih =>
      intro call value member
      rcases List.mem_append.mp member with earlier | now
      · have good := verified.sound starts inv before.reaches
        exact (lasting call value).act good taken (ih call value earlier)
      · have good := verified.sound starts inv
          (.step before.reaches permitted taken)
        obtain ⟨process, holds⟩ := good.returned now
        exact returns call value _ _ holds

/-! ## Vows a footprint keeps -/

/-- What is known of a transaction alone, whatever writes of a footprint it
makes and whatever remarks of a kind it leaves. -/
structure Minded (terms : Terms Db Write Lock) (emits : Write → Prop)
    (leaves : List Write → Prop) (known : Local Write Lock → Prop) :
    Prop where
  note : ∀ state remarks, leaves remarks → known state →
    known (state.note remarks)
  extend : ∀ state writes locks, (∀ write ∈ writes, emits write) →
    known state → known (state.extend writes locks)
  committed : ∀ state, known state → known state.committed
  rolledBack : ∀ state, known state → known state.rolledBack
  vow : ∀ db state, C.Fine terms db → known state → terms.vow db state

theorem Ends.of_emits {terms : Terms Db Write Lock} {emits : Write → Prop}
    {drifts : Write → Prop} {leaves : List Write → Prop}
    {known : Local Write Lock → Prop}
    (minded : Minded (C := C) terms emits leaves known) {γ : Type}
    {values : γ → Prop} {program : Prog Db Write Lock γ}
    (body : program.Emits (fun _ => True) emits drifts values)
    (remarks : program.Leaves leaves) {db : Db}
    {local_ : Local Write Lock} (holds : known local_) :
    C.Ends terms (fun _ _ state => known state) program db local_ := by
  induction program generalizing db local_ with
  | done value => exact fun _ _ => holds
  | halt => trivial
  | query read remark tail ih =>
      exact fun after _ => ih _ (body _ trivial) (remarks _).2
        (minded.note _ _ (remarks _).1 holds)
  | exec statement tail ih =>
      intro snapshot current _ _ others effect ran _
      obtain ⟨writes, _, rest⟩ := body _ _ others effect trivial trivial ran
      exact ih _ rest (remarks _) (minded.extend _ _ _ writes holds)
  | commit tail ih =>
      intro after mild
      exact ⟨minded.vow after _ mild.fine holds,
        fun _ => ih body remarks (minded.committed _ holds)⟩
  | rollback tail ih =>
      exact fun _ _ => ih body remarks (minded.rolledBack _ holds)

/-- A script that keeps to a footprint sees to what the footprint sees to. -/
theorem Yields.of_emits {terms : Terms Db Write Lock} {emits : Write → Prop}
    {drifts : Write → Prop} {leaves : List Write → Prop}
    {known : Local Write Lock → Prop}
    (minded : Minded (C := C) terms emits leaves known)
    {script : Script Db Write Lock ε β}
    (body : script.Emits (fun _ => True) emits drifts)
    (remarks : Prog.Leaves leaves script.run) :
    C.Yields terms (fun _ => known) script (fun _ _ => known)
      fun _ _ => known := by
  intro db state _ _ holds
  refine (Ends.of_emits minded body remarks holds).mono ?_
  intro result db state _ still
  cases result <;> exact still

end Setting

end Sqlery.ReadCommitted
