import Sqlery.Standalone.RetryRules

/-!
# Where the two workers retry alike

Both create a retry of the same jobs, with the same columns and delay, exactly
for the failures described by `Alike`: the asynchronous worker knows neither
the policy of the task, nor the countdown and the caps, nor the retry that is
already there, and gives up a job it cannot load.
-/

namespace Sqlery.Standalone.RetryRules

variable {Exc Cls : Type} {world : World Exc Cls} {failed : Failed Exc}

/-! ## The delay before it is shaped -/

/-- The interval of the retry count, or `backoff * 2 ** retry_count`. -/
def plainDelay (job : Job) : Option Rat :=
  match intervalDelay job.retryIntervals job.retryCount with
  | some interval => interval
  | none => some (backoffOf job * 2 ^ job.retryCount)

/-- `RETRY_BACKOFF_MAX` is no cap on an interval. -/
def scheduleCap (world : World Exc Cls) (job : Job) : Option Rat :=
  match intervalDelay job.retryIntervals job.retryCount with
  | some _ => none
  | none => world.retryBackoffMax

def policyCap (world : World Exc Cls) (job : Job) : Option Rat :=
  ((world.loadTask job.taskPath).getD {}).backoffMax

def NoJitter (world : World Exc Cls) (job : Job) : Prop :=
  world.retryJitter = false ∧
    ∀ policy, world.loadTask job.taskPath = some policy →
      policy.jitter ≠ some true

theorem computeRetryDelay_eq {job : Job} (noJitter : NoJitter world job) :
    computeRetryDelay world (backoffOf job) job.retryCount
        job.retryIntervals =
      (plainDelay job).map (capped (scheduleCap world job)) := by
  simp only [computeRetryDelay, plainDelay, scheduleCap]
  cases intervalDelay job.retryIntervals job.retryCount with
  | none => simp [noJitter.1]
  | some interval =>
      cases interval with
      | none => rfl
      | some delay => rfl

theorem shapeRetryDelay_eq {job : Job} (noJitter : NoJitter world job)
    (delay : Rat) (countdown : Option Rat) :
    shapeRetryDelay world delay job countdown =
      countdown.getD (capped (policyCap world job) delay) := by
  cases countdown with
  | some countdown => rfl
  | none =>
      have unjittered : ((world.loadTask job.taskPath).getD {}).jitter ≠
          some true := by
        cases loaded : world.loadTask job.taskPath with
        | none => simp
        | some policy => exact noJitter.2 policy loaded
      simp [shapeRetryDelay, policyCap, unjittered]

/-! ## The caps -/

/-- The cap leaves the delay as it is. -/
def Within (cap : Option Rat) (delay : Rat) : Prop :=
  ∀ most, cap = some most → most ≠ 0 → delay ≤ most

theorem capped_le (cap : Option Rat) (delay : Rat) :
    capped cap delay ≤ delay := by
  cases cap with
  | none => exact le_rfl
  | some most =>
      simp only [capped]
      split
      · exact le_rfl
      · exact min_le_left delay most

theorem capped_eq_iff {cap : Option Rat} {delay : Rat} :
    capped cap delay = delay ↔ Within cap delay := by
  cases cap with
  | none => simp [capped, Within]
  | some most =>
      by_cases zero : most = 0
      · simp [capped, Within, zero]
      · simp [capped, Within, zero]

/-- Neither of two caps binds, if together they leave the delay alone. -/
theorem capped_capped_eq_iff {first second : Option Rat} {delay : Rat} :
    capped second (capped first delay) = delay ↔
      Within first delay ∧ Within second delay := by
  constructor
  · intro same
    have low : delay ≤ capped first delay := by
      calc delay = capped second (capped first delay) := same.symm
        _ ≤ capped first delay := capped_le second _
    have free := le_antisymm (capped_le first delay) low
    rw [free] at same
    exact ⟨capped_eq_iff.mp free, capped_eq_iff.mp same⟩
  · rintro ⟨inFirst, inSecond⟩
    rw [capped_eq_iff.mpr inFirst, capped_eq_iff.mpr inSecond]

/-! ## The columns -/

theorem retryKwargs_eq_iff {job : Job} :
    retryKwargs job = { retryKwargs job with retryBackoff := backoffOf job } ↔
      job.retryBackoff ≠ 0 := by
  constructor
  · intro same zero
    have backoffs : (retryKwargs job).retryBackoff = backoffOf job :=
      congrArg JobSpec.retryBackoff same
    simp [retryKwargs, backoffOf, zero] at backoffs
  · intro nonzero
    simp [retryKwargs, backoffOf, nonzero]

theorem retryJobFields_eq (job : Job) :
    retryJobFields job = (plainDelay job).map fun delay =>
      ({ retryKwargs job with retryBackoff := backoffOf job }, delay) := rfl

/-! ## The decision -/

theorem shouldRetry_eq :
    shouldRetry world failed =
      (shouldRetryAsync failed.job &&
        policyAllowsRetry world failed.job failed.exc) := by
  simp only [shouldRetry, shouldRetryAsync]
  by_cases none_ : failed.job.maxRetries ≤ 0
  · have notPositive : ¬0 < failed.job.maxRetries := by omega
    simp [none_, notPositive]
  · have positive : 0 < failed.job.maxRetries := by omega
    by_cases used : failed.job.maxRetries ≤ failed.job.retryCount
    · have notLess : ¬failed.job.retryCount < failed.job.maxRetries := by omega
      simp [none_, used, notLess]
    · have less : failed.job.retryCount < failed.job.maxRetries := by omega
      simp [none_, used, positive, less]

/-- The synchronous worker's countdown and caps change nothing. -/
def Unshaped (world : World Exc Cls) (failed : Failed Exc) (delay : Rat) :
    Prop :=
  match retryCountdown failed.exc with
  | some countdown => countdown = delay
  | none => Within (scheduleCap world failed.job) delay ∧
      Within (policyCap world failed.job) delay

/-- Where the workers agree: of a failure with retries left, a job that was
loaded is one the policy retries, without a retry so far, with a back-off
other than zero and a delay that nothing shapes; and a job that was not loaded
is one that the synchronous worker does not retry either. -/
def Alike (world : World Exc Cls) (failed : Failed Exc) : Prop :=
  shouldRetryAsync failed.job = true → ∀ delay,
    plainDelay failed.job = some delay →
      if failed.loaded then
        failed.existing = false ∧
          policyAllowsRetry world failed.job failed.exc = true ∧
          failed.job.retryBackoff ≠ 0 ∧ Unshaped world failed delay
      else
        failed.existing = true ∨
          policyAllowsRetry world failed.job failed.exc = false

theorem unshaped_iff {delay : Rat} :
    (retryCountdown failed.exc).getD
        (capped (policyCap world failed.job)
          (capped (scheduleCap world failed.job) delay)) = delay ↔
      Unshaped world failed delay := by
  simp only [Unshaped]
  cases retryCountdown failed.exc with
  | some countdown => exact Iff.rfl
  | none => exact capped_capped_eq_iff

theorem retryJob_eq (noJitter : NoJitter world failed.job) :
    retryJob world failed =
      if shouldRetryAsync failed.job &&
          policyAllowsRetry world failed.job failed.exc && !failed.existing then
        (plainDelay failed.job).map fun delay =>
          (retryKwargs failed.job, (retryCountdown failed.exc).getD
            (capped (policyCap world failed.job)
              (capped (scheduleCap world failed.job) delay)))
      else none := by
  simp only [retryJob, shouldRetry_eq, computeRetryDelay_eq noJitter,
    shapeRetryDelay_eq noJitter, Option.map_map]
  rfl

/-- The workers create the same retry, or none, exactly where they are
alike. -/
theorem retries_alike_iff (world : World Exc Cls) (failed : Failed Exc)
    (noJitter : NoJitter world failed.job) :
    retryJob world failed = requeueForRetry failed ↔ Alike world failed := by
  rw [retryJob_eq noJitter]
  simp only [requeueForRetry, retryJobFields_eq, Alike]
  cases budget : shouldRetryAsync failed.job with
  | false => simp
  | true =>
      cases planned : plainDelay failed.job with
      | none => simp
      | some delay =>
          cases loaded : failed.loaded with
          | false =>
              cases policyAllowsRetry world failed.job failed.exc <;>
                cases failed.existing <;> simp
          | true =>
              cases allowed : policyAllowsRetry world failed.job failed.exc <;>
                cases existing : failed.existing <;> simp
              rw [retryKwargs_eq_iff, unshaped_iff]

/-- A task that retries on connection errors only. -/
def onConnectionErrors : World String String where
  isInstance exc cls := exc = cls
  loadTask _ := some { autoretryFor := some ["ConnectionError"] }

def failedByValue : Failed String where
  job := { id := 1, createdAt := 0, maxRetries := 3, status := .failed }
  exc := .other "ValueError"

/-- Only the asynchronous worker retries another failure. -/
theorem retries_differ :
    NoJitter onConnectionErrors failedByValue.job ∧
      retryJob onConnectionErrors failedByValue = none ∧
      requeueForRetry failedByValue ≠ none := by
  refine ⟨⟨rfl, ?_⟩, by decide, by decide⟩
  intro policy isPolicy
  cases isPolicy
  decide

def failedByConnection : Failed String where
  job := { id := 1, createdAt := 0, maxRetries := 3, status := .failed }
  exc := .other "ConnectionError"

theorem retries_alike_failedByConnection :
    retryJob onConnectionErrors failedByConnection =
        requeueForRetry failedByConnection ↔
      Alike onConnectionErrors failedByConnection :=
  retries_alike_iff onConnectionErrors failedByConnection
    ⟨rfl, fun policy isPolicy => by cases isPolicy; decide⟩

end Sqlery.Standalone.RetryRules
