import Mathlib.Control.ULift
import Sqlery.Core.Decisions

/-!
# Dependency verdicts

What `judge_dependencies` decides when its look-ups are functions.  The chain
of newest retries that starts at a dependency ends in one job; that job decides
what the dependency says, and the verdict is put together from what all of them
say.
-/

namespace Sqlery

variable {latest : JobId → Option Job} {fetch : JobId → Option Job}

/-! ## The end of a chain -/

/-- The job that a chain of newest retries ends in, as far as so many hops
lead. -/
def chainEnd (latest : JobId → Option Job) : Nat → Job → Job
  | 0, row => row
  | hops + 1, row =>
      if row.status = .failed || row.status = .archived then
        match latest row.id with
        | none => row
        | some child => chainEnd latest hops child
      else row

theorem newestRetry_chainEnd (hops : Nat) (row : Job) :
    (newestRetry (m := ULift.{1}) (fun job => ⟨latest job⟩) hops row).down =
      chainEnd latest hops row := by
  induction hops generalizing row with
  | zero => rfl
  | succ hops ih =>
      simp only [newestRetry, chainEnd]
      split
      · change ULift.down (match latest row.id with
          | none => pure row
          | some child => newestRetry (m := ULift.{1})
              (fun job => ⟨latest job⟩) hops child) = _
        cases latest row.id with
        | none => rfl
        | some child => exact ih child
      · rfl

/-- The chain of newest retries from the one job to the other, with so many
links. -/
inductive ChainTo (latest : JobId → Option Job) : Nat → Job → Job → Prop where
  | settled {row : Job} : row.status ≠ .failed → row.status ≠ .archived →
      ChainTo latest 0 row row
  | last {row : Job} : latest row.id = none → ChainTo latest 0 row row
  | link {links : Nat} {row child final : Job} :
      row.status = .failed ∨ row.status = .archived →
      latest row.id = some child → ChainTo latest links child final →
      ChainTo latest (links + 1) row final

theorem ChainTo.chainEnd {links : Nat} {row final : Job}
    (chain : ChainTo latest links row final) {hops : Nat}
    (enough : links ≤ hops) : chainEnd latest hops row = final := by
  induction chain generalizing hops with
  | settled notFailed notArchived =>
      cases hops with
      | zero => rfl
      | succ hops => simp [Sqlery.chainEnd, notFailed, notArchived]
  | last none =>
      cases hops with
      | zero => rfl
      | succ hops => simp [Sqlery.chainEnd, none]
  | link superseded isChild _ ih =>
      cases hops with
      | zero => cases enough
      | succ hops =>
          simp only [Sqlery.chainEnd, isChild, Bool.or_eq_true,
            decide_eq_true_eq, superseded, if_true]
          exact ih (Nat.le_of_succ_le_succ enough)

/-! ## What a dependency says -/

/-- What a dependency says about the jobs that wait on it. -/
inductive Fate where
  | missing
  | success
  | failed
  /-- Failed, and its retry is still to be created. -/
  | owing
  | unfinished
  deriving DecidableEq, Repr

def endFate (row : Job) : Fate :=
  if row.status = .success then .success
  else if row.status = .failed then
    if isRetryPending row.terminationReason then .owing else .failed
  else .unfinished

def fate (fetch latest : JobId → Option Job) (dep : JobId) : Fate :=
  match fetch dep with
  | none => .missing
  | some row => endFate (chainEnd latest maxChainHops row)

/-- The dependency fails the jobs that wait on it. -/
def Fate.fails (fate : Fate) : Bool := fate = .missing || fate = .failed

/-- The dependency keeps them waiting. -/
def Fate.waits (fate : Fate) : Bool := fate = .owing || fate = .unfinished

/-! ## The verdict -/

/-- `judge_dependencies` over look-ups that are functions, over the part of the
list that is left. -/
def judgedFrom (fetch latest : JobId → Option Job) (deps failed : List JobId)
    (pending : Bool) : DependencyVerdict :=
  (judgeFrom (m := ULift.{1}) fetch (fun job => ⟨latest job⟩) deps failed
    pending).down

/-- `judge_dependencies` over look-ups that are functions. -/
def judged (fetch latest : JobId → Option Job) (deps : List JobId) :
    DependencyVerdict :=
  (judgeDependencies (m := ULift.{1}) deps fetch fun job => ⟨latest job⟩).down

theorem judged_eq (deps : List JobId) :
    judged fetch latest deps = judgedFrom fetch latest deps [] false := rfl

theorem judgedFrom_none {dep : JobId} {rest failed : List JobId}
    {pending : Bool} (missing : fetch dep = none) :
    judgedFrom fetch latest (dep :: rest) failed pending =
      judgedFrom fetch latest rest (failed ++ [dep]) pending := by
  simp only [judgedFrom, judgeFrom, missing]

theorem judgedFrom_some {dep : JobId} {row newest : Job}
    {rest failed : List JobId} {pending : Bool} (found : fetch dep = some row)
    (isEnd : chainEnd latest maxChainHops row = newest) :
    judgedFrom fetch latest (dep :: rest) failed pending =
      if newest.status = .success then
        judgedFrom fetch latest rest failed pending
      else if newest.status = .failed &&
          !isRetryPending newest.terminationReason then
        judgedFrom fetch latest rest (failed ++ [newest.id]) pending
      else judgedFrom fetch latest rest failed true := by
  have goesOn : ∀ {α β : Type} (first : ULift.{1} α)
      (next : α → ULift.{1} β), (first >>= next).down =
        (next first.down).down := fun _ _ => rfl
  simp only [judgedFrom, judgeFrom, found]
  rw [goesOn, newestRetry_chainEnd, isEnd]
  by_cases success : newest.status = .success
  · rw [if_pos success, if_pos success]
  · rw [if_neg success, if_neg success, apply_ite ULift.down]

theorem judgedFrom_state (deps failed : List JobId) (pending : Bool) :
    (judgedFrom fetch latest deps failed pending).state =
      if failed ≠ [] ∨ deps.any (fun dep => (fate fetch latest dep).fails) then
        .failed
      else if pending ∨ deps.any (fun dep => (fate fetch latest dep).waits) then
        .pending
      else .met := by
  induction deps generalizing failed pending with
  | nil =>
      by_cases none : failed = []
      · cases pending <;> simp [judgedFrom, judgeFrom, none] <;> rfl
      · simp [judgedFrom, judgeFrom, none]
        rfl
  | cons dep rest ih =>
      cases found : fetch dep with
      | none =>
          have isMissing : fate fetch latest dep = .missing := by
            simp only [fate, found]
          rw [judgedFrom_none found, ih, List.any_cons, isMissing]
          simp [Fate.fails]
      | some row =>
          have isEnd : fate fetch latest dep =
              endFate (chainEnd latest maxChainHops row) := by
            simp only [fate, found]
          rw [judgedFrom_some found rfl, List.any_cons, List.any_cons, isEnd]
          generalize chainEnd latest maxChainHops row = newest
          by_cases success : newest.status = .success
          · have isSuccess : endFate newest = .success := by
              simp [endFate, success]
            rw [if_pos success, ih, isSuccess]
            simp [Fate.fails, Fate.waits]
          · rw [if_neg success]
            by_cases isFailed : newest.status = .failed
            · cases owed : isRetryPending newest.terminationReason with
              | true =>
                  have isOwing : endFate newest = .owing := by
                    simp [endFate, isFailed, owed]
                  rw [if_neg (by simp), ih, isOwing]
                  simp [Fate.fails, Fate.waits]
              | false =>
                  have fails : endFate newest = .failed := by
                    simp [endFate, isFailed, owed]
                  rw [if_pos (by simp [isFailed]), ih, fails]
                  simp [Fate.fails]
            · have waits : endFate newest = .unfinished := by
                simp [endFate, isFailed, success]
              rw [if_neg (by simp [isFailed]), ih, waits]
              simp [Fate.fails, Fate.waits]

theorem judged_failed_iff {deps : List JobId} :
    (judged fetch latest deps).state = .failed ↔
      ∃ dep ∈ deps, (fate fetch latest dep).fails = true := by
  rw [judged_eq, judgedFrom_state, ← List.any_eq_true]
  cases deps.any (fun dep => (fate fetch latest dep).fails) with
  | true => simp
  | false =>
      cases deps.any (fun dep => (fate fetch latest dep).waits) <;> simp

theorem judged_met_iff {deps : List JobId} :
    (judged fetch latest deps).state = .met ↔
      ∀ dep ∈ deps, fate fetch latest dep = .success := by
  have all : (∀ dep ∈ deps, fate fetch latest dep = .success) ↔
      deps.any (fun dep => (fate fetch latest dep).fails) = false ∧
        deps.any (fun dep => (fate fetch latest dep).waits) = false := by
    simp only [List.any_eq_false, ← forall_and]
    refine forall_congr' fun dep => forall_congr' fun _ => ?_
    cases fate fetch latest dep <;> decide
  rw [judged_eq, judgedFrom_state, all]
  cases deps.any (fun dep => (fate fetch latest dep).fails) <;>
    cases deps.any (fun dep => (fate fetch latest dep).waits) <;> simp

end Sqlery
