import Sqlery.Django.PoolWorker

/-!
# How the worker's scripts end

A script returns or raises, in a state either way.  One rule for each way of
putting scripts together, and one for each statement.
-/

namespace Sqlery.Django.PoolWorker

open ReadCommitted
open BulkUpdate

/-- The script returns into `returns` or raises into `raises`. -/
def Ends {α : Type} (returns : α → State → Prop) (raises : Exc → State → Prop)
    (script : Script α) (state : State) : Prop :=
  match script state with
  | .ok result next => returns result next
  | .error exc next => raises exc next

/-- The state in which the script ends either way. -/
def leaves {α : Type} (script : Script α) (state : State) : State :=
  match script state with
  | .ok _ next => next
  | .error _ next => next

theorem Ends.leaves {α : Type} {script : Script α} {state : State}
    (holds : State → Prop)
    (ends : Ends (fun _ next => holds next) (fun _ next => holds next) script
      state) : holds (leaves script state) := by
  unfold Ends at ends
  unfold PoolWorker.leaves
  split at ends
  · exact ends
  · exact ends

section Rules

variable {α β : Type} {returns : α → State → Prop}
  {raises : Exc → State → Prop} {state : State}

theorem Ends.mono {script : Script α} {returns' : α → State → Prop}
    {raises' : Exc → State → Prop} (ends : Ends returns raises script state)
    (ok : ∀ result next, returns result next → returns' result next)
    (error : ∀ exc next, raises exc next → raises' exc next) :
    Ends returns' raises' script state := by
  unfold Ends at ends ⊢
  split at ends
  · exact ok _ _ ends
  · exact error _ _ ends

/-- A script that does not raise. -/
theorem Ends.ofReturns {script : Script α} {returns' : α → State → Prop}
    {raises' : Exc → State → Prop}
    (ends : Ends returns (fun _ _ => False) script state)
    (ok : ∀ result next, returns result next → returns' result next) :
    Ends returns' raises' script state :=
  ends.mono ok fun _ _ never => never.elim

/-- A script that raises in any case. -/
theorem Ends.ofRaises {script : Script α} {returns' : α → State → Prop}
    {raises' : Exc → State → Prop}
    (ends : Ends (fun _ _ => False) raises script state)
    (error : ∀ exc next, raises exc next → raises' exc next) :
    Ends returns' raises' script state :=
  ends.mono (fun _ _ never => never.elim) error

@[simp] theorem ends_pure {result : α} :
    Ends returns raises (pure result) state ↔ returns result state := Iff.rfl

@[simp] theorem ends_throw {exc : Exc} :
    Ends returns raises (throw exc : Script α) state ↔ raises exc state :=
  Iff.rfl

@[simp] theorem ends_bind {script : Script β} {next : β → Script α} :
    Ends returns raises (script >>= next) state ↔
      Ends (fun result => Ends returns raises (next result)) raises script
        state := by
  simp only [Ends, bind, EStateM.bind]
  cases script state <;> rfl

@[simp] theorem ends_catching {body : Script α} {handler : Exc → Script α} :
    Ends returns raises (catching body handler) state ↔
      Ends returns (fun exc next =>
        if exc.isException then Ends returns raises (handler exc) next
        else raises exc next) body state := by
  simp only [Ends, catching]
  cases body state with
  | ok result next => rfl
  | error exc next =>
      by_cases caught : exc.isException = true
      · simp only [caught, if_true]
      · simp only [caught]
        rfl

@[simp] theorem ends_transaction {setting : Setting} {body : Script α} :
    Ends returns raises (transaction setting body) state ↔
      Ends returns (fun exc next => raises exc { next with
        db := replay setting state.moment (next.moment - state.moment)
          state.db }) body state := by
  simp only [Ends, transaction]
  cases body state <;> rfl

@[simp] theorem ends_ite {condition : Prop} [Decidable condition]
    {left right : Script α} :
    Ends returns raises (if condition then left else right) state ↔
      if condition then Ends returns raises left state
      else Ends returns raises right state := by
  split <;> rfl

variable {setting : Setting}

@[simp] theorem ends_heldJob {returns : Held → State → Prop} :
    Ends returns raises heldJob state ↔ returns state.job state := Iff.rfl

@[simp] theorem ends_now {returns : Time → State → Prop} :
    Ends returns raises now state ↔ returns state.db.clock state := Iff.rfl

@[simp] theorem ends_editJob {returns : Unit → State → Prop}
    {change : Held → Held} :
    Ends returns raises (editJob change) state ↔
      returns () { state with job := change state.job } := Iff.rfl

@[simp] theorem ends_store {returns : Unit → State → Prop} {db : Db} :
    Ends returns raises (store db) state ↔ returns () { state with db } :=
  Iff.rfl

@[simp] theorem ends_meets {returns : Db → State → Prop} :
    Ends returns raises (meets setting) state ↔
      returns (setting.world state.moment state.db)
        { state with
          db := setting.world state.moment state.db
          moment := state.moment + 1 } := Iff.rfl

end Rules

/-! ## What the other transactions leave as it is -/

/-- No other transaction ends the fact. -/
def Lasts (setting : Setting) (fact : Db → Prop) : Prop :=
  ∀ moment db, fact db → fact (setting.world moment db)

theorem Lasts.and {setting : Setting} {left right : Db → Prop}
    (leftLasts : Lasts setting left) (rightLasts : Lasts setting right) :
    Lasts setting fun db => left db ∧ right db := by
  intro moment db both
  exact ⟨leftLasts moment db both.1, rightLasts moment db both.2⟩

theorem Lasts.replay {setting : Setting} {fact : Db → Prop}
    (lasts : Lasts setting fact) (count : Nat) :
    ∀ {start : Nat} {db : Db}, fact db →
      fact (replay setting start count db) := by
  unfold PoolWorker.replay
  induction count with
  | zero =>
      intro start db holds
      exact holds
  | succ count induction =>
      intro start db holds
      rw [List.range'_succ, List.foldl_cons]
      exact induction (lasts start db holds)

end Sqlery.Django.PoolWorker
