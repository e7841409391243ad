import Sqlery.Core.Job

/-!
# Decisions

The framework-independent decisions of `sqlery.core`: what a claimer does with
the row it locked (`attempts`), what a job's dependencies decide (`ready`), how
an owed retry is marked (`retry`) and with which status a row enters history
(`history`).
-/

namespace Sqlery

/-- The exceptions the modelled functions raise themselves. -/
inductive Exc where
  | fencing (message : String)
  | runtime (message : String)
  | attribute (message : String)
  deriving DecidableEq, Repr

/-! ## `attempts` -/

/-- The status readers see for a live row. -/
def derivedStatus (stored : Status) (hasOpenAttempt : Bool) : Status :=
  if hasOpenAttempt && stored = .queued then .running else stored

inductive ClaimVerdict where
  | ok
  | stale
  deriving DecidableEq, Repr

def claimVerdict (stored : Status) (version expectedVersion : Nat)
    (hasOpenAttempt : Bool) : ClaimVerdict :=
  if stored ≠ .queued then .stale
  else if hasOpenAttempt then .stale
  else if version ≠ expectedVersion then .stale
  else .ok

theorem claimVerdict_eq_ok {stored : Status} {version expected : Nat}
    {hasOpenAttempt : Bool} :
    claimVerdict stored version expected hasOpenAttempt = .ok ↔
      stored = .queued ∧ hasOpenAttempt = false ∧ version = expected := by
  unfold claimVerdict
  by_cases queued : stored = .queued
  · cases hasOpenAttempt <;> by_cases same : version = expected <;>
      simp [queued, same]
  · simp [queued]

def decideClose (rowcount : Nat) (handle : AttemptHandle) : Except Exc Unit :=
  if rowcount ≠ 1 then
    .error (.fencing
      (s!"Attempt {handle.id} of job {handle.jobId} is no longer open " ++
        "(already finished or abandoned by recovery); completion rejected"))
  else .ok ()

/-- The outcome recorded by a caller that holds no handle. -/
def unfencedOutcome (outcome : Outcome) : Outcome :=
  if outcome = .success then .success else .abandoned

def AttemptHandle.ofAttempt (attempt : Attempt) : AttemptHandle where
  id := attempt.id
  token := attempt.token
  jobId := attempt.jobId
  claimedAt := some attempt.claimedAt
  workerId := attempt.workerId
  workerPid := attempt.workerPid

/-- The attempt a handle names. -/
def AttemptHandle.names (handle : AttemptHandle) (attempt : Attempt) : Bool :=
  attempt.id = handle.id && attempt.token = handle.token

/-- A row as the running job its open attempt makes it, in memory only. -/
def overlayRunning (job : Job) (attempt : Option Attempt) : Job :=
  match attempt with
  | none => job
  | some attempt =>
      { job with
        status := .running
        startedAt := some attempt.claimedAt
        workerId := attempt.workerId
        workerPid := attempt.workerPid
        childPid := attempt.childPid }

/-! ## `retry` -/

def retryPending : String := "retry_pending"

def pendingReason (reason : String) : String :=
  retryPending ++ (if reason = "" then "" else ":" ++ reason)

def dropChars (n : Nat) (text : String) : String :=
  String.ofList (text.toList.drop n)

def takeChars (n : Nat) (text : String) : String :=
  String.ofList (text.toList.take n)

def settledReason (reason : String) : String :=
  if reason = retryPending then ""
  else if (retryPending ++ ":").toList.isPrefixOf reason.toList then
    dropChars (retryPending.length + 1) reason
  else reason

def isRetryPending (reason : String) : Bool :=
  reason = retryPending ||
    (retryPending ++ ":").toList.isPrefixOf reason.toList

theorem pendingReason_eq {reason : String} (some_ : reason ≠ "") :
    (pendingReason reason).toList =
      (retryPending ++ ":").toList ++ reason.toList := by
  rw [pendingReason, if_neg some_, String.toList_append, String.toList_append,
    String.toList_append, List.append_assoc]

theorem settledReason_pendingReason (reason : String) :
    settledReason (pendingReason reason) = reason := by
  by_cases empty : reason = ""
  · subst empty
    decide
  · have isList := pendingReason_eq empty
    have other : pendingReason reason ≠ retryPending := by
      intro same
      have lengths := congrArg List.length (same ▸ isList)
      simp [retryPending] at lengths
    have starts : (retryPending ++ ":").toList.isPrefixOf
        (pendingReason reason).toList = true := by
      rw [List.isPrefixOf_iff_prefix, isList]
      exact List.prefix_append _ _
    rw [settledReason, if_neg other, if_pos starts, dropChars, isList]
    have counts : retryPending.length + 1 =
        (retryPending ++ ":").toList.length := by decide
    rw [counts, List.drop_left, String.ofList_toList]

/-- The marker is longer than what it marks. -/
theorem settledReason_ne_pendingReason (reason : String) :
    settledReason (pendingReason reason) ≠ pendingReason reason := by
  rw [settledReason_pendingReason]
  intro same
  by_cases empty : reason = ""
  · subst empty
    revert same
    decide
  · have lengths := congrArg (fun text => text.toList.length) same
    simp only [pendingReason_eq empty, List.length_append] at lengths
    have long : (retryPending ++ ":").toList.length = 14 := by decide
    omega

/-- What starts with another letter is no marker. -/
theorem isRetryPending_of_head {reason : String} {head : Char}
    {tail : List Char} (isList : reason.toList = head :: tail)
    (other : head ≠ 'r') : isRetryPending reason = false := by
  have differs : reason ≠ retryPending := by
    intro same
    rw [same] at isList
    cases isList
    exact other rfl
  have noPrefix : (retryPending ++ ":").toList.isPrefixOf reason.toList =
      false := by
    rw [isList]
    simp [retryPending, List.isPrefixOf, other.symm]
  simp only [isRetryPending, differs, noPrefix, decide_false, Bool.or_false]

/-- SQL `LIKE 'retry_pending%'`: the underscore stands for any character, and
SQLite ignores the case of ASCII letters. -/
def likeRetryPending (ignoreCase : Bool) (reason : String) : Bool :=
  let chars := reason.toList.map fun c => if ignoreCase then c.toLower else c
  chars.take 5 = "retry".toList && 5 < chars.length &&
    "pending".toList.isPrefixOf (chars.drop 6)

def retryBudgetLeft (job : Job) : Bool :=
  0 < job.maxRetries && job.retryCount < job.maxRetries

/-! ## `history` -/

def isTerminal (status : Status) : Bool :=
  status = .success || status = .failed || status = .archived

@[simp] theorem isTerminal_failed : isTerminal .failed = true := rfl

def settledTerminationReason (reason : String) : String :=
  settledReason reason

/-- What a stray terminal row becomes when it is settled; `none` leaves it. -/
def settleStatus (status : Status) (reason : String) (hasRetry : Bool) :
    Option Status :=
  if status = .success || status = .archived then some status
  else if status ≠ .failed then none
  else if isRetryPending reason then none
  else if hasRetry then some .archived
  else some .failed

theorem isTerminal_of_settleStatus {status settled : Status} {reason : String}
    {hasRetry : Bool}
    (settles : settleStatus status reason hasRetry = some settled) :
    isTerminal settled = true := by
  unfold settleStatus at settles
  split at settles
  · rename_i final
    cases settles
    revert final
    cases status <;> simp [isTerminal]
  · split at settles
    · cases settles
    · split at settles
      · cases settles
      · split at settles <;> cases settles <;> rfl

/-! ## `ready` -/

inductive DependencyState where
  | met
  | pending
  | failed
  deriving DecidableEq, Repr

structure DependencyVerdict where
  state : DependencyState
  failed : List JobId := []
  deriving DecidableEq, Repr

/-- Hops followed along a retry chain before giving up. -/
def maxChainHops : Nat := 1000

def dependencyIds (job : Job) : List JobId :=
  job.dependencies.foldl (fun seen raw =>
    match raw with
    | none => seen
    | some dependency =>
        if dependency ∈ seen then seen else seen ++ [dependency]) []

/-- The newest link of the retry chain that starts at a dependency. -/
def newestRetry {m : Type → Type 1} [Monad m]
    (latestRetry : JobId → m (Option Job)) : Nat → Job → m Job
  | 0, dep => pure dep
  | hops + 1, dep =>
      if dep.status = .failed || dep.status = .archived then do
        match ← latestRetry dep.id with
        | none => pure dep
        | some child => newestRetry latestRetry hops child
      else pure dep

/-- `judge_dependencies`, over the part of the list that is left. -/
def judgeFrom {m : Type → Type 1} [Monad m] (fetch : JobId → Option Job)
    (latestRetry : JobId → m (Option Job)) :
    List JobId → List JobId → Bool → m DependencyVerdict
  | [], failed, pending =>
      pure (if failed ≠ [] then ⟨.failed, failed⟩
        else ⟨if pending then .pending else .met, []⟩)
  | depId :: rest, failed, pending =>
      match fetch depId with
      | none =>
          judgeFrom fetch latestRetry rest (failed ++ [depId]) pending
      | some dep => do
          let newest ← newestRetry latestRetry maxChainHops dep
          if newest.status = .success then
            judgeFrom fetch latestRetry rest failed pending
          else if newest.status = .failed &&
              !isRetryPending newest.terminationReason then
            judgeFrom fetch latestRetry rest (failed ++ [newest.id]) pending
          else judgeFrom fetch latestRetry rest failed true

def judgeDependencies {m : Type → Type 1} [Monad m] (deps : List JobId)
    (fetch : JobId → Option Job) (latestRetry : JobId → m (Option Job)) :
    m DependencyVerdict :=
  judgeFrom fetch latestRetry deps [] false

/-! ## `QueuedJob` -/

def recordRun (job : Job) (status : Status) (output error : String) : Job :=
  { job with
    runs := job.runs ++ [{
      attemptNumber := job.retryCount
      startedAt := job.startedAt
      finishedAt := job.finishedAt
      status
      duration := job.durationSeconds
      output := takeChars 1000 output
      error := takeChars 1000 error }] }

def finishAt (job : Job) (status : Status) (now : Time) : Job :=
  { job with
    status
    finishedAt := some now
    durationSeconds := match job.startedAt with
      | some started => some (now - started)
      | none => job.durationSeconds }

def markSuccess (job : Job) (output : String) (now : Time) : Job :=
  recordRun { finishAt job .success now with output } .success output ""

def markFailed (job : Job) (error traceback reason : String) (now : Time) :
    Job :=
  recordRun
    { finishAt job .failed now with
      error, traceback, terminationReason := reason }
    .failed "" error

end Sqlery
