import Mathlib.Algebra.Order.Ring.Rat

/-!
# Decisions of the rotation

What a writer of the ready queue does before it inserts, and the next step of
the rotator from the state it derives.
-/

namespace Sqlery.Rotation

def slotCount : Nat := 3

def slotDefault : Nat := 0

def slotForGeneration (generation : Nat) : Nat := generation % slotCount

/-! ## Writers -/

structure WriterPlan where
  fenced : Bool
  slot : Option Nat
  deriving DecidableEq, Repr

def planWriter (enabled postgresql sequencePresent : Bool) : WriterPlan :=
  if enabled && postgresql && sequencePresent then
    { fenced := true, slot := none }
  else { fenced := false, slot := some slotDefault }

/-! ## Rotators -/

structure RotationConfig where
  interval : Rat := 60
  drainBatch : Nat := 1000

/-- What the next step depends on, derived from the database. -/
structure RotationState where
  generation : Nat
  /-- A slot holds visible rows. -/
  nonempty : Nat → Bool
  /-- The storage of a slot is not reclaimed. -/
  dirty : Nat → Bool
  now : Int
  lastSwitch : Option Int
  interval : Rat
  switchLock : Option Bool := none
  reclaimLock : Option Bool := none

namespace RotationState

def current (state : RotationState) : Nat := slotForGeneration state.generation

/-- The slots that writers do not use, the previous one first. -/
def others (state : RotationState) : List Nat :=
  [(state.current + 2) % slotCount, (state.current + 1) % slotCount]

def intervalElapsed (state : RotationState) : Bool :=
  match state.lastSwitch with
  | none => true
  | some last => state.interval ≤ ((state.now - last : Int) : Rat)

end RotationState

inductive Action where
  | idle (reason : String)
  | drain (slot : Nat)
  | reclaim (slot : Nat)
  | switch
  | retry (slot : Option Nat) (reason : String)
  deriving DecidableEq, Repr

def Action.reason : Action → String
  | .idle reason => reason
  | .retry _ reason => reason
  | _ => ""

def decideRotationStep (state : RotationState) : Action :=
  match state.others.find? state.nonempty with
  | some slot => .drain slot
  | none =>
      match state.others.find? state.dirty with
      | some slot =>
          if state.reclaimLock = some false then
            .retry slot "partition is locked by another transaction"
          else .reclaim slot
      | none =>
          if !state.intervalElapsed then .idle "interval not elapsed"
          else if state.switchLock = some false then
            .retry none "a writer of the current generation is still open"
          else .switch

/-! ## What is decided -/

section

variable {state : RotationState} {slot : Nat}

theorem mem_others : slot ∈ state.others ↔
    slot < slotCount ∧ slot ≠ state.current := by
  have small : state.current < 3 := Nat.mod_lt _ (by decide)
  simp only [RotationState.others, slotCount, List.mem_cons, List.not_mem_nil,
    or_false]
  omega

/-- The generation moves on when all other slots are clean and the interval is
over. -/
theorem switch_iff : decideRotationStep state = .switch ↔
    (∀ other ∈ state.others,
      state.nonempty other = false ∧ state.dirty other = false) ∧
    state.intervalElapsed = true ∧ state.switchLock ≠ some false := by
  unfold decideRotationStep
  cases empty : state.others.find? state.nonempty with
  | some first =>
      have member := List.mem_of_find?_eq_some empty
      have holds := List.find?_some empty
      simp only [reduceCtorEq, false_iff]
      intro clean
      rw [(clean.1 first member).1] at holds
      cases holds
  | none =>
      cases clean : state.others.find? state.dirty with
      | some first =>
          have member := List.mem_of_find?_eq_some clean
          have holds := List.find?_some clean
          have never : ¬∀ other ∈ state.others,
              state.nonempty other = false ∧ state.dirty other = false := by
            intro all
            rw [(all first member).2] at holds
            cases holds
          simp only [never, false_and, iff_false]
          split <;> simp
      | none =>
          have all : ∀ other ∈ state.others,
              state.nonempty other = false ∧ state.dirty other = false := by
            intro other member
            exact ⟨by simpa using List.find?_eq_none.mp empty other member,
              by simpa using List.find?_eq_none.mp clean other member⟩
          simp only
          split
          · rename_i waiting
            simp only [Bool.not_eq_true'] at waiting
            simp [waiting]
          · rename_i elapsed
            simp only [Bool.not_eq_true', Bool.not_eq_false] at elapsed
            split
            · rename_i refused
              simp [refused]
            · rename_i free
              simp only [true_iff]
              exact ⟨all, elapsed, free⟩

end

end Sqlery.Rotation
