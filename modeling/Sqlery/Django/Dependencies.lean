import Mathlib.Data.List.Dedup
import Mathlib.Data.List.Sort
import Sqlery.Core.Verdicts
import Sqlery.ReadCommitted.Table

/-!
# The dependency check of the Django models

`check_dependencies_met` of the Django `QueuedJob` beside `judge_dependencies`.
Both follow the chains of newest retries.  The Django check looks for missing
jobs first, gives up at the first job that is not finished, and knows nothing
of retries that are owed.
-/

namespace Sqlery.Django

open ReadCommitted

/-- The rows of the union view of live and finished jobs. -/
abbrev JobAll := Table Job.id

/-! ## The check -/

/-- `ORDER BY created_at DESC, id DESC`. -/
def newerFirst (left right : Job) : Bool :=
  right.createdAt < left.createdAt ||
    (left.createdAt = right.createdAt && right.id ≤ left.id)

/-- The newest retry of a job. -/
def latestRetry (jobAll : JobAll) (job : JobId) : Option Job :=
  ((jobAll.rows.filter fun row : Job =>
    row.parentJobId = some job).insertionSort
    fun left right => newerFirst left right).head?

/-- The loop of `check_dependencies_met` over the dependencies that were
found. -/
def checkStatuses (latest : JobId → Option Job) :
    List Job → List JobId → Bool × List JobId
  | [], failedDeps =>
      if failedDeps ≠ [] then (false, failedDeps) else (true, [])
  | dep :: rest, failedDeps =>
      let newest := chainEnd latest 1000 dep
      if newest.status = .archived then (false, [])
      else if newest.status = .failed then
        checkStatuses latest rest (failedDeps ++ [newest.id])
      else if newest.status ≠ .success then (false, [])
      else checkStatuses latest rest failedDeps

/-- `check_dependencies_met`. -/
def checkDependenciesMet (jobAll : JobAll) (dependencies : List JobId) :
    Bool × List JobId :=
  if dependencies = [] then (true, [])
  else
    let dependencyJobs := jobAll.rows.filter fun row => row.id ∈ dependencies
    let foundIds := dependencyJobs.map (·.id)
    let missing := dependencies.dedup.filter fun dep => dep ∉ foundIds
    if missing ≠ [] then (false, missing)
    else checkStatuses (latestRetry jobAll) dependencyJobs []

/-! ## What it decides -/

section Decides

variable {jobAll : JobAll} {latest : JobId → Option Job} {deps : List JobId}
variable {rows : List Job} {failedDeps : List JobId}

theorem endFate_success {row : Job} :
    endFate row = .success ↔ row.status = .success := by
  unfold endFate
  split
  · simp [*]
  · split
    · split <;> simp [*]
    · simp [*]

theorem endFate_unfinished {row : Job} :
    endFate row = .unfinished ↔
      row.status ≠ .success ∧ row.status ≠ .failed := by
  unfold endFate
  split
  · simp [*]
  · split
    · split <;> simp [*]
    · simp [*]

theorem checkStatuses_met :
    (checkStatuses latest rows failedDeps).1 = true ↔
      failedDeps = [] ∧
        ∀ row ∈ rows, endFate (chainEnd latest 1000 row) = .success := by
  induction rows generalizing failedDeps with
  | nil =>
      by_cases none : failedDeps = [] <;> simp [checkStatuses, none]
  | cons dep rest ih =>
      simp only [checkStatuses, List.forall_mem_cons, endFate_success]
      generalize chainEnd latest 1000 dep = newest
      cases status : newest.status with
      | success => simp [ih, endFate_success]
      | failed => simp [ih]
      | _ => simp

theorem checkStatuses_failed :
    (checkStatuses latest rows failedDeps).2 ≠ [] ↔
      (∀ row ∈ rows, endFate (chainEnd latest 1000 row) ≠ .unfinished) ∧
        (failedDeps ≠ [] ∨
          ∃ row ∈ rows, (chainEnd latest 1000 row).status = .failed) := by
  induction rows generalizing failedDeps with
  | nil =>
      by_cases none : failedDeps = [] <;> simp [checkStatuses, none]
  | cons dep rest ih =>
      simp only [checkStatuses, List.forall_mem_cons, List.exists_mem_cons_iff,
        ne_eq, endFate_unfinished]
      generalize chainEnd latest 1000 dep = newest
      cases status : newest.status with
      | success => simp [ih, endFate_unfinished]
      | failed => simp [ih, endFate_unfinished]
      | _ => simp

/-- A dependency that exists, by the row of the view. -/
theorem fate_of_mem {row : Job} (stored : row ∈ jobAll.rows) :
    fate jobAll.get latest row.id =
      endFate (chainEnd latest maxChainHops row) := by
  simp only [fate, Table.get_of_mem stored]

theorem fate_missing_iff {dep : JobId} :
    fate jobAll.get latest dep = .missing ↔ jobAll.get dep = none := by
  unfold fate
  cases jobAll.get dep with
  | none => simp
  | some row =>
      simp only [reduceCtorEq, iff_false]
      unfold endFate
      split
      · decide
      · split
        · split <;> decide
        · decide

theorem missing_ids (jobAll : JobAll) (deps : List JobId) :
    (deps.dedup.filter fun dep => dep ∉
      (jobAll.rows.filter fun row => row.id ∈ deps).map (·.id)) ≠ [] ↔
        ∃ dep ∈ deps, jobAll.get dep = none := by
  rw [ne_eq, List.filter_eq_nil_iff]
  push Not
  constructor
  · rintro ⟨dep, member, absent⟩
    have isDep := List.mem_dedup.mp member
    refine ⟨dep, isDep, ?_⟩
    cases found : jobAll.get dep with
    | none => rfl
    | some row =>
        have isRow : row.id = dep := Table.key_of_get found
        have stored := Table.mem_of_get found
        simp only [List.mem_map, List.mem_filter, decide_eq_true_eq,
          not_exists, not_and] at absent
        exact (absent row ⟨stored, isRow.symm ▸ isDep⟩ isRow).elim
  · rintro ⟨dep, member, absent⟩
    refine ⟨dep, List.mem_dedup.mpr member, ?_⟩
    simp only [List.mem_map, List.mem_filter, decide_eq_true_eq, not_exists,
      not_and]
    rintro row ⟨stored, _⟩ isRow
    rw [← isRow, Table.get_of_mem stored] at absent
    cases absent

/-- What all dependencies say, by the rows that were found. -/
theorem found_iff (holds : Fate → Prop)
    (all : ∀ dep ∈ deps, jobAll.get dep ≠ none) :
    (∀ row ∈ jobAll.rows.filter (fun row => row.id ∈ deps),
      holds (endFate (chainEnd latest maxChainHops row))) ↔
        ∀ dep ∈ deps, holds (fate jobAll.get latest dep) := by
  constructor
  · intro rows dep isDep
    obtain ⟨row, found⟩ := Option.ne_none_iff_exists'.mp (all dep isDep)
    have isRow : row.id = dep := Table.key_of_get found
    have stored := Table.mem_of_get found
    rw [← isRow, fate_of_mem stored]
    apply rows row
    simp only [List.mem_filter, decide_eq_true_eq]
    exact ⟨stored, isRow.symm ▸ isDep⟩
  · intro fates row member
    simp only [List.mem_filter, decide_eq_true_eq] at member
    rw [← fate_of_mem member.1]
    exact fates row.id member.2

theorem checkDependenciesMet_met :
    (checkDependenciesMet jobAll deps).1 = true ↔
      ∀ dep ∈ deps, fate jobAll.get (latestRetry jobAll) dep = .success := by
  unfold checkDependenciesMet
  by_cases empty : deps = []
  · simp [empty]
  · simp only [empty, if_false]
    split
    · rename_i missing
      obtain ⟨dep, isDep, absent⟩ := (missing_ids jobAll deps).mp missing
      simp only [Bool.false_eq_true, false_iff, not_forall]
      refine ⟨dep, isDep, ?_⟩
      rw [fate_missing_iff.mpr absent]
      decide
    · rename_i none
      have all : ∀ dep ∈ deps, jobAll.get dep ≠ .none := by
        intro dep isDep absent
        exact none ((missing_ids jobAll deps).mpr ⟨dep, isDep, absent⟩)
      rw [checkStatuses_met]
      simp only [true_and]
      exact found_iff (· = .success) all

theorem checkDependenciesMet_failed :
    (checkDependenciesMet jobAll deps).2 ≠ [] ↔
      (∃ dep ∈ deps, fate jobAll.get (latestRetry jobAll) dep = .missing) ∨
        (∀ dep ∈ deps,
          fate jobAll.get (latestRetry jobAll) dep ≠ .unfinished) ∧
        ∃ dep ∈ deps, fate jobAll.get (latestRetry jobAll) dep = .failed ∨
          fate jobAll.get (latestRetry jobAll) dep = .owing := by
  have ended : ∀ row : Job, row.status = .failed ↔
      endFate row = .failed ∨ endFate row = .owing := by
    intro row
    unfold endFate
    cases row.status with
    | failed => cases isRetryPending row.terminationReason <;> simp
    | _ => simp
  unfold checkDependenciesMet
  by_cases empty : deps = []
  · simp [empty]
  · simp only [empty, if_false]
    split
    · rename_i missing
      obtain ⟨dep, isDep, absent⟩ := (missing_ids jobAll deps).mp missing
      simp only [missing, ne_eq, not_false_eq_true, true_iff]
      exact Or.inl ⟨dep, isDep, fate_missing_iff.mpr absent⟩
    · rename_i none
      have all : ∀ dep ∈ deps, jobAll.get dep ≠ .none := by
        intro dep isDep absent
        exact none ((missing_ids jobAll deps).mpr ⟨dep, isDep, absent⟩)
      have present : ¬∃ dep ∈ deps,
          fate jobAll.get (latestRetry jobAll) dep = .missing := by
        rintro ⟨dep, isDep, isMissing⟩
        exact all dep isDep (fate_missing_iff.mp isMissing)
      have none_fails : (∃ row ∈ jobAll.rows.filter (fun row => row.id ∈ deps),
          (chainEnd (latestRetry jobAll) 1000 row).status = .failed) ↔
            ∃ dep ∈ deps, fate jobAll.get (latestRetry jobAll) dep = .failed ∨
              fate jobAll.get (latestRetry jobAll) dep = .owing := by
        simp only [ended]
        rw [← not_iff_not]
        push Not
        exact found_iff (fun fate => fate ≠ .failed ∧ fate ≠ .owing) all
      rw [checkStatuses_failed]
      simp only [present, false_or, ne_eq, not_true_eq_false]
      exact and_congr (found_iff (· ≠ .unfinished) all) none_fails

end Decides

/-! ## The two judgements -/

/-- The Django check and `judge_dependencies` decide the same. -/
structure Agree (jobAll : JobAll) (deps : List JobId) : Prop where
  met : (checkDependenciesMet jobAll deps).1 = true ↔
    (judged jobAll.get (latestRetry jobAll) deps).state = .met
  failed : (checkDependenciesMet jobAll deps).2 ≠ [] ↔
    (judged jobAll.get (latestRetry jobAll) deps).state = .failed

/-- Some dependency says this. -/
def Says (jobAll : JobAll) (deps : List JobId) (said : Fate) : Prop :=
  ∃ dep ∈ deps, fate jobAll.get (latestRetry jobAll) dep = said

theorem judged_failed_says {jobAll : JobAll} {deps : List JobId} :
    (judged jobAll.get (latestRetry jobAll) deps).state = .failed ↔
      Says jobAll deps .missing ∨ Says jobAll deps .failed := by
  rw [judged_failed_iff, Says, Says, ← exists_or]
  apply exists_congr
  intro dep
  rw [← and_or_left]
  apply and_congr_right
  intro _
  simp [Fate.fails]

/-- The judgements agree exactly if a dependency is missing, or none has failed
while another is unfinished and none owes a retry while all the others have
succeeded. -/
theorem judgements_agree_iff (jobAll : JobAll) (deps : List JobId) :
    Agree jobAll deps ↔
      Says jobAll deps .missing ∨
        ¬(Says jobAll deps .unfinished ∧ Says jobAll deps .failed) ∧
        (Says jobAll deps .owing →
          Says jobAll deps .unfinished ∨ Says jobAll deps .failed) := by
  have met : (checkDependenciesMet jobAll deps).1 = true ↔
      (judged jobAll.get (latestRetry jobAll) deps).state = .met :=
    checkDependenciesMet_met.trans judged_met_iff.symm
  have failed : (checkDependenciesMet jobAll deps).2 ≠ [] ↔
      Says jobAll deps .missing ∨ ¬Says jobAll deps .unfinished ∧
        (Says jobAll deps .failed ∨ Says jobAll deps .owing) := by
    rw [checkDependenciesMet_failed]
    apply or_congr Iff.rfl
    apply and_congr
    · simp [Says]
    · simp only [Says, ← exists_or, ← and_or_left]
  have same : Agree jobAll deps ↔
      ((checkDependenciesMet jobAll deps).2 ≠ [] ↔
        (judged jobAll.get (latestRetry jobAll) deps).state = .failed) :=
    ⟨fun agree => agree.failed, fun agree => ⟨met, agree⟩⟩
  rw [same, failed, judged_failed_says]
  generalize Says jobAll deps .missing = missing
  generalize Says jobAll deps .failed = failed
  generalize Says jobAll deps .owing = owing
  generalize Says jobAll deps .unfinished = unfinished
  grind

/-- A failed job that owes a retry. -/
def owingJob : JobAll :=
  ⟨[{ id := 1, createdAt := 0, status := .failed,
      terminationReason := retryPending }], by simp⟩

/-- A dependency that is about to be retried fails the job on the one side
only. -/
theorem judgements_differ : ¬∀ (jobAll : JobAll) (deps : List JobId),
    Agree jobAll deps := by
  intro agree
  have django : (checkDependenciesMet owingJob [1]).2 ≠ [] := by
    decide +kernel
  have core : (judged owingJob.get (latestRetry owingJob) [1]).state ≠
      .failed := by
    decide +kernel
  exact core ((agree owingJob [1]).failed.mp django)

end Sqlery.Django
