import Mathlib.Logic.Function.Basic

/-!
# Machines

A machine takes one action at a time, when the action is possible in its state.
An invariant of its runs is proved for the first state and for one action.
-/

namespace Sqlery.Runs

variable {State Action : Type}

abbrev Machine (State Action : Type) : Type := State → Action → Option State

/-- States reached by actions that all meet `allowed`. -/
inductive Reaches (act : Machine State Action)
    (allowed : State → Action → Prop) (start : State) : State → Prop where
  | refl : Reaches act allowed start start
  | step {state next : State} {action : Action} :
      Reaches act allowed start state → allowed state action →
      act state action = some next → Reaches act allowed start next

/-- Every action is allowed. -/
def anyAction (_ : State) (_ : Action) : Prop := True

variable {act : Machine State Action} {allowed : State → Action → Prop}
variable {start state : State}

/-- What holds first and is kept by every action holds in every run. -/
theorem Reaches.invariant {holds : State → Prop}
    (reached : Reaches act allowed start state) (first : holds start)
    (kept : ∀ before action next, holds before → allowed before action →
      act before action = some next → holds next) : holds state := by
  induction reached with
  | refl => exact first
  | step _ permitted taken ih => exact kept _ _ _ ih permitted taken

theorem Reaches.trans {middle : State}
    (left : Reaches act allowed start middle)
    (right : Reaches act allowed middle state) :
    Reaches act allowed start state := by
  induction right with
  | refl => exact left
  | step _ permitted taken ih => exact .step ih permitted taken

theorem Reaches.mono {weaker : State → Action → Prop}
    (reached : Reaches act allowed start state)
    (implies : ∀ before action, allowed before action →
      weaker before action) : Reaches act weaker start state := by
  induction reached with
  | refl => exact .refl
  | step _ permitted taken ih => exact .step ih (implies _ _ permitted) taken

/-- The run of a list of actions that all pass a check. -/
def runWhile (act : Machine State Action) (check : State → Action → Bool)
    (state : State) : List Action → Option State
  | [] => some state
  | action :: actions =>
      if check state action then
        (act state action).bind fun next => runWhile act check next actions
      else none

theorem reaches_of_runWhile {check : State → Action → Bool}
    (sound : ∀ before action, check before action = true →
      allowed before action)
    {actions : List Action}
    (ran : runWhile act check start actions = some state) :
    Reaches act allowed start state := by
  induction actions generalizing start with
  | nil =>
      cases ran
      exact .refl
  | cons action actions ih =>
      simp only [runWhile] at ran
      split at ran
      · rename_i checked
        obtain ⟨next, taken, ran⟩ := Option.bind_eq_some_iff.mp ran
        exact .trans (.step .refl (sound _ _ checked) taken) (ih ran)
      · cases ran

end Sqlery.Runs
