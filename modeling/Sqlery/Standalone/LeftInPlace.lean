import Sqlery.ReadCommitted.Answers
import Sqlery.Standalone.CallFootprints

/-!
# Rows that are left where they are

A failure that will be retried stays in the live table.  A completion that
presents an attempt leaves a row there only after it has closed that attempt,
in the same transaction; no other call of a worker writes a live row.
-/

namespace Sqlery.Standalone

open ReadCommitted
open Setting (Yields Ends Lasts Minded)
open Script

/-- The job and the attempt that a call ends together. -/
def Call.finishes : Call → Option (JobId × AttemptHandle)
  | .markJobFailed jobId _ _ _ _ (some handle) => some (jobId, handle)
  | .failExecution job handle _ _ _ => some (job.id, handle)
  | _ => none

/-- The transaction closes the attempt of the handle. -/
def ClosesHere (handle : AttemptHandle) (state : Loc) : Prop :=
  ∃ owner now outcome,
    .closeAttempt handle.id owner now outcome ∈ state.pending

/-- A row is left in place only with its attempt closed. -/
def LeftInPlace (call : Call) (state : Loc) : Prop :=
  ∀ row, .setLive row ∈ state.pending → ∃ handle,
    call.finishes = some (row.id, handle) ∧ ClosesHere handle state

/-- Calls that leave no other row in place. -/
def Call.tidy : Call → Bool
  | .markJobFailed _ _ _ _ reason attempt =>
      !isRetryPending reason || attempt.isSome
  | .cascadeAncestorStatus _ status => isTerminal status
  | .releaseClaimedJob _ _ status _ _ => isTerminal status
  | .cleanupStaleJobs _ => false
  | _ => true

/-- A session that sees to it. -/
def tending (call : Call) : Terms Db Write Lock where
  keeps := fun _ _ => True
  vow := fun _ => LeftInPlace call

/-- The script leaves no other row in place. -/
def Tends (cfg : Config) (call : Call) {α : Type} (script : Sql α) : Prop :=
  (backend cfg).Yields (tending call) (fun _ => LeftInPlace call) script
    (fun _ _ => LeftInPlace call) fun _ _ => LeftInPlace call

section Tends

variable {cfg : Config} {call : Call} {state : Loc}

theorem ClosesHere.extend {handle : AttemptHandle} (writes : List Write)
    (locks : List Lock) (closes : ClosesHere handle state) :
    ClosesHere handle (state.extend writes locks) := by
  obtain ⟨owner, now, outcome, member⟩ := closes
  exact ⟨owner, now, outcome, List.mem_append_left _ member⟩

theorem leftInPlace_of_idle (idle : state.pending = []) :
    LeftInPlace call state := by
  intro row member
  rw [idle] at member
  cases member

theorem LeftInPlace.extend {writes : List Write} {locks : List Lock}
    (left : LeftInPlace call state)
    (writtenBy : ∀ row, .setLive row ∈ writes → ∃ handle,
      call.finishes = some (row.id, handle) ∧ ClosesHere handle state) :
    LeftInPlace call (state.extend writes locks) := by
  intro row member
  have known : ∃ handle, call.finishes = some (row.id, handle) ∧
      ClosesHere handle state := by
    rcases List.mem_append.mp member with old | new
    · exact left row old
    · exact writtenBy row new
  obtain ⟨handle, finishes, closes⟩ := known
  exact ⟨handle, finishes, closes.extend writes locks⟩

/-- Nothing is written to a live row. -/
def apartScope : Scope where
  sees := fun _ => True
  emits := fun write => ∀ row, write ≠ .setLive row
  free := by
    rintro write aside row rfl
    cases aside

theorem minded : Minded (C := backend cfg) (tending call) apartScope.emits
    (fun _ => True) (LeftInPlace call) where
  note := fun _ _ _ left => left
  extend := fun _ _ _ apart left => left.extend fun row member =>
    (apart _ member row rfl).elim
  committed := fun _ _ => leftInPlace_of_idle rfl
  rolledBack := fun _ _ => leftInPlace_of_idle rfl
  vow := fun _ _ _ left => left

theorem tends_of_keeps {α : Type} {script : Sql α}
    (keeps : apartScope.Keeps script) : Tends cfg call script :=
  Yields.of_emits minded keeps (.anything _)

theorem apart_new (spec : JobSpec) : apartScope.AdmitsNew spec :=
  ⟨fun _ _ _ => by simp, fun _ _ _ => by simp⟩

theorem tending_chains : Setting.Chains (tending call) where
  refl := fun _ => trivial
  trans := fun _ _ _ _ _ => trivial

theorem Tends.bind {α β : Type} {first : Sql β} {next : β → Sql α}
    (begins : Tends cfg call first)
    (rest : ∀ value, Tends cfg call (next value)) :
    Tends cfg call (first >>= next) :=
  Yields.bind tending_chains (fun _ => Lasts.local) begins rest

theorem Tends.map {α β : Type} {first : Sql β} {result : β → α}
    (begins : Tends cfg call first) : Tends cfg call (result <$> first) :=
  Yields.map tending_chains (fun _ => Lasts.local) (fun _ => Lasts.local)
    begins

theorem Tends.session {α : Type} {body : Sql α} (begins : Tends cfg call body) :
    Tends cfg call (Script.session body) :=
  Yields.session tending_chains begins (fun _ => Lasts.local)
    (fun _ => Lasts.local) (fun _ => Lasts.local) (fun _ => Lasts.local)
    (fun _ _ _ _ _ => leftInPlace_of_idle rfl)
    fun _ _ _ _ _ => leftInPlace_of_idle rfl

theorem Tends.quietly {body : Sql Unit} (begins : Tends cfg call body) :
    Tends cfg call (Script.quietly body) :=
  Yields.quietly tending_chains Lasts.local begins

/-! ## Completions -/

variable {job : JobId} {handle : AttemptHandle}

/-- An attempt is closed under a handle only if it is the handle's. -/
theorem closeExact_closes {outcome : Outcome} {now : Time} :
    (backend cfg).Yields (tending call) (fun _ => LeftInPlace call)
      (closeExactStmt cfg handle outcome now)
      (fun count _ state => LeftInPlace call state ∧
        (count = 1 → ClosesHere handle state))
      fun _ _ => LeftInPlace call := by
  have closes : (backend cfg).Yields (tending call)
      (fun _ => LeftInPlace call)
      (exec (dml Db.attempts cfg
        (fun _ attempt => handle.names attempt && attempt.isOpen)
        fun attempt => .closeAttempt attempt.id attempt.jobId now outcome) :
        Sql (List Attempt))
      (fun closed _ state => LeftInPlace call state ∧
        (closed.length = 1 → ClosesHere handle state))
      fun _ _ => LeftInPlace call := by
    apply Yields.exec Lasts.local fun _ => Lasts.local
    intro snapshot current state others effect _ _ _ _ left _ ran
    cases ran
    constructor
    · apply left.extend
      intro row member
      obtain ⟨attempt, _, impossible⟩ := List.mem_map.mp member
      cases impossible
    · intro single
      obtain ⟨attempt, isClosed⟩ := List.exists_mem_of_length_pos
        (lt_of_lt_of_eq Nat.one_pos single.symm)
      dsimp only at isClosed
      have admitted := (mem_targets_iff.mp isClosed).2.1
      simp only [AttemptHandle.names, Bool.and_eq_true,
        decide_eq_true_eq] at admitted
      refine ⟨attempt.jobId, now, outcome, ?_⟩
      rw [← admitted.1.1]
      exact List.mem_append_right _ (List.mem_map_of_mem isClosed)
  exact Yields.bind tending_chains (fun _ => Lasts.local) closes
    fun closed => .pure Lasts.local fun _ _ _ _ holds => holds

theorem closeAttempt_closes {outcome : Outcome} :
    (backend cfg).Yields (tending call) (fun _ => LeftInPlace call)
      (closeAttempt cfg job (some handle) outcome)
      (fun _ _ state => LeftInPlace call state ∧ ClosesHere handle state)
      fun _ _ => LeftInPlace call := by
  apply Yields.bind tending_chains (fun _ => Lasts.local)
    (tends_of_keeps (.read _))
  intro now
  apply Yields.bind tending_chains (fun _ => Lasts.local) closeExact_closes
  intro count
  cases isOk : decideClose count handle with
  | error exception =>
      exact .raise Lasts.local fun _ _ _ holds => holds.1
  | ok _ =>
      have single : count = 1 := by
        by_contra several
        simp [decideClose, several] at isOk
      exact .pure Lasts.local fun _ _ _ _ holds => ⟨holds.1, holds.2 single⟩

/-- The row that is left is the job's. -/
theorem recordOutcome_tends (finishes : call.finishes = some (job, handle))
    {version : Option Nat} {status : Status} {values : Values} :
    (backend cfg).Yields (tending call)
      (fun _ state => LeftInPlace call state ∧ ClosesHere handle state)
      (recordOutcome cfg job version status values)
      (fun _ _ => LeftInPlace call) fun _ _ => LeftInPlace call := by
  unfold recordOutcome
  split
  · have updates : (backend cfg).Yields (tending call)
        (fun _ state => LeftInPlace call state ∧ ClosesHere handle state)
        (updateLive cfg
          (fun _ row => row.id = job &&
            version.all fun version => row.version = version)
          fun row =>
            { values.update row with status, version := row.version + 1 })
        (fun _ _ => LeftInPlace call) fun _ _ => LeftInPlace call := by
      refine Yields.bind tending_chains (fun _ => Lasts.local) ?_
        fun rows => .pure Lasts.local fun _ _ _ _ holds => holds
      apply Yields.exec Lasts.local fun _ => Lasts.local
      intro snapshot current state others effect _ _ _ _ _ holds ran
      cases ran
      apply holds.1.extend
      intro row member
      obtain ⟨old, isOld, isRow⟩ := List.mem_map.mp member
      have admitted := (mem_targets_iff.mp isOld).2.1
      simp only [Bool.and_eq_true, decide_eq_true_eq] at admitted
      cases isRow
      exact ⟨handle, by rw [finishes, ← admitted.1]; rfl, holds.2⟩
    exact Yields.bind tending_chains (fun _ => Lasts.local) updates
      fun updated => tends_of_keeps (.pure _)
  · have moves : Tends cfg call
        (finishIn cfg { jobId := job, expectedVersion := version } status
          values) := tends_of_keeps finishIn_keeps
    exact moves.weaken fun _ _ _ holds => holds.1

theorem fencedUpdate_tends (finishes : call.finishes = some (job, handle))
    {version : Option Nat} {status : Status} {values : Values}
    {outcome : Outcome} {parent : Option JobId} :
    Tends cfg call (fencedUpdate cfg job version status values (some handle)
      outcome parent) := by
  apply Yields.bind tending_chains (fun _ => Lasts.local) closeAttempt_closes
  intro _
  apply Yields.bind tending_chains (fun _ => Lasts.local)
    (recordOutcome_tends finishes)
  intro applied
  apply tends_of_keeps
  cases applied with
  | true =>
      exact .bind .commit fun _ =>
        .bind (.whenever releaseDependentsQuietly_keeps) fun _ => findJob_keeps
  | false =>
      apply Emits.bind .rollback
      intro _
      cases version with
      | some version => exact .raise _
      | none => exact .pure _

theorem markJobFailed_tends (finishes : call.finishes = some (job, handle))
    {error traceback reason : String} {version : Option Nat} :
    Tends cfg call (markJobFailed cfg job error traceback version reason
      (some handle)) := by
  apply Tends.bind (tends_of_keeps getJobById_keeps)
  intro found
  cases found with
  | none => exact tends_of_keeps (.pure _)
  | some found =>
      cases found with
      | staged row => exact tends_of_keeps (.pure _)
      | finished row =>
          exact tends_of_keeps alreadyFinished_finds.forget
      | live shown =>
          apply Tends.session
          apply Tends.bind (tends_of_keeps (.read _))
          intro live
          cases live with
          | none => exact tends_of_keeps (.pure _)
          | some row =>
              exact .bind (tends_of_keeps (.read _)) fun running =>
                .bind (tends_of_keeps (.read _)) fun now =>
                  fencedUpdate_tends finishes

theorem failExecution_tends {row : Job} {error traceback : String}
    {willRetry : Bool}
    (finishes : call.finishes = some (row.id, handle)) :
    Tends cfg call
      (failExecution cfg row handle error traceback willRetry) := by
  apply Tends.quietly
  apply Tends.bind (markJobFailed_tends finishes)
  intro found
  cases willRetry with
  | false => exact tends_of_keeps (.pure _)
  | true =>
      have takes : apartScope.Keeps (jobOf found) := by
        cases found with
        | none => exact .raise _
        | some found =>
            cases found with
            | staged row => exact .raise _
            | finished row => exact .pure _
            | live row => exact .pure _
      exact .bind (tends_of_keeps takes) fun failed =>
        .bind (tends_of_keeps (retryJob_keeps fun _ => apart_new _))
          fun _ => tends_of_keeps (.pure _)

/-- Every call of a worker sees to it. -/
theorem scriptOf_tends (tidy : call.tidy = true) :
    Tends cfg call (scriptOf cfg call) := by
  by_cases admits : apartScope.Admits cfg call
  · exact tends_of_keeps (scriptOf_keeps admits)
  · cases call with
    | markJobFailed jobId error traceback version reason attempt =>
        cases attempt with
        | some handle => exact .map (markJobFailed_tends rfl)
        | none =>
            simp only [Call.tidy, Option.isSome_none, Bool.or_false,
              Bool.not_eq_true'] at tidy
            apply (admits ?_).elim
            intro pending
            rw [tidy] at pending
            cases pending
    | failExecution job attempt error traceback willRetry =>
        exact .map (failExecution_tends rfl)
    | cascadeAncestorStatus jobId status => exact (admits tidy).elim
    | releaseClaimedJob job worker status processed kwargs =>
        exact (admits tidy).elim
    | createJob spec => exact (admits (apart_new spec)).elim
    | advanceScheduledTaskIfDue task observed next spec =>
        exact (admits (apart_new spec)).elim
    | recoverLostRetries grace limit =>
        exact (admits fun _ _ _ _ _ _ => apart_new _).elim
    | cleanupStaleJobs queue => cases tidy
    | _ => exact (admits trivial).elim

end Tends

end Sqlery.Standalone
