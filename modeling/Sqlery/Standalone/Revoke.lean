import Sqlery.ReadCommitted.Extension
import Sqlery.Standalone.Verified

/-!
# Revoking a running job

`request_job_revoke` flags the row of a running job; the worker that executes
the job polls the flag, kills the child process and fails the job.  Both are
calls beside those of the backend.
-/

namespace Sqlery.Standalone

open ReadCommitted
open Script

def revokeRequested : String := "revoke_requested"

/-- `REVOKED_ERROR`. -/
def revokedError : String := "Revoked by user"

def revokedTraceback (childPid : Nat) : String :=
  s!"Child PID {childPid} terminated on revoke request"

/-- `request_job_revoke`. -/
def requestJobRevoke (cfg : Config) (jobId : JobId) : Sql Bool :=
  session do
    let updated ← updateLive cfg
      (fun db row => row.id = jobId && db.running row)
      fun row => { row with terminationReason := revokeRequested }
    commit
    pure (0 < updated)

/-- `is_job_revoke_requested`. -/
def isJobRevokeRequested (jobId : JobId) : Sql Bool :=
  session (read fun db => db.live.rows.any fun row =>
    row.id = jobId && db.running row &&
      row.terminationReason = revokeRequested)

/-- The revoke poll of `_await_child`: a child that is revoked has been killed
before its job is failed. -/
def pollRevoke (cfg : Config) (jobId : JobId) (childPid : Nat)
    (attempt : Option AttemptHandle) : Sql Unit := do
  if ← isJobRevokeRequested jobId then
    quietly (markJobFailed cfg jobId revokedError (revokedTraceback childPid)
      none "" attempt)
  else pure ()

inductive RevokeCall where
  | call (call : Call)
  | requestJobRevoke (jobId : JobId)
  | pollRevoke (jobId : JobId) (childPid : Nat)
      (attempt : Option AttemptHandle)
  deriving DecidableEq

def revokeScript (cfg : Config) : RevokeCall → Sql Result
  | .call call => scriptOf cfg call
  | .requestJobRevoke jobId => .flag <$> requestJobRevoke cfg jobId
  | .pollRevoke jobId childPid attempt =>
      (fun _ => .done) <$> pollRevoke cfg jobId childPid attempt

/-- What the call promises like: the flag is an update that may keep a row
queued, and the poll ends in a completion. -/
def RevokeCall.like : RevokeCall → Call
  | .call known => known
  | .requestJobRevoke jobId => .cascadeAncestorStatus jobId .queued
  | .pollRevoke jobId childPid attempt =>
      .markJobFailed jobId revokedError (revokedTraceback childPid) none ""
        attempt

/-! ## What the flag promises -/

/-- All the transaction writes is rows of the live table that were queued and
stay queued. -/
def FlagsQueued (db : Db) (state : Loc) : Prop :=
  ∀ write ∈ state.pending, ∃ row live, write = .setLive row ∧
    row.status = .queued ∧ db.live.get row.id = some live ∧
    live.status = .queued

/-- A flag beyond a lawful update: it changes no status. -/
def RevokeCall.beyond : RevokeCall → Db → Loc → Prop
  | .requestJobRevoke _ => FlagsQueued
  | _ => fun _ _ => True

/-- The calls of the backend with revokes beside them. -/
def revokes (cfg : Config) : (backend cfg).Extension RevokeCall where
  body call := (revokeScript cfg call).run
  like := RevokeCall.like
  beyond := RevokeCall.beyond

abbrev revoking (cfg : Config) : Setting Db Write Lock RevokeCall Return :=
  (revokes cfg).setting

section Specs

variable {cfg : Config} {job : JobId}

theorem flagsQueued_stable : (backend cfg).Stable FlagsQueued := by
  apply stable_of
  · intro db mine theirs other stage _ guarded others lawful _ apart flags
      write member
    obtain ⟨row, live, rfl, queued, found, isQueued⟩ := flags write member
    refine ⟨row, live, rfl, queued, ?_, isQueued⟩
    rw [live_kept others apart (owns_of_guarded guarded member rfl)]
    exact found
  · intro db next mine same flags write member
    rw [same.live]
    exact flags write member

/-- The `UPDATE` of a revoke. -/
theorem flag_spec {fails : Db → Loc → Prop}
    (stableFails : (backend cfg).Stable fails) :
    (backend cfg).Spec (.cascadeAncestorStatus job .queued)
      (fun db state => At cfg (.cascadeAncestorStatus job .queued) {}
          updatedTxn db state ∧ state.pending = [])
      (updateLive cfg (fun db row => row.id = job && db.running row)
        fun row => { row with terminationReason := revokeRequested })
      (fun count db state => Updated cfg (.cascadeAncestorStatus job .queued)
          {} updatedTxn count db state ∧ FlagsQueued db state) fails := by
  have queued : ∀ (db : Db) (row : Job),
      (decide (row.id = job) && db.running row) = true →
        row.status = .queued := by
    intro db row admitted
    simp only [Bool.and_eq_true, Db.running, decide_eq_true_eq] at admitted
    exact admitted.2.1
  have blank : (backend cfg).Stable fun _ state => state.pending = [] :=
    fun _ _ _ _ _ _ holds => holds
  apply Setting.Spec.and
  · apply updateLive_spec job stableFails (fun _ isKind => isKind) rfl
    · intro db row admitted
      simp only [Bool.and_eq_true, decide_eq_true_eq] at admitted
      exact admitted.1
    · exact fun row => ⟨rfl, rfl, rfl⟩
    · intro db row admitted
      have isQueued := queued db row admitted
      exact ⟨by simp [isQueued], fun _ => rfl⟩
    · exact Or.inl rfl
    · exact judged_of_quiet rfl job
  · refine .bind stableFails (.exec blank (fun _ => flagsQueued_stable) ?_)
      fun rows => .pure flagsQueued_stable fun _ _ _ _ flags => flags
    intro snapshot current state others effect _ _ _ _ _ nothing ran
    cases ran
    refine ⟨by simp [backend], ?_⟩
    intro write member
    simp only [Local.extend, nothing, List.nil_append, List.mem_map] at member
    obtain ⟨found, isFound, rfl⟩ := member
    obtain ⟨isCurrent, admitted, _⟩ := mem_targets_iff.mp isFound
    have isQueued := queued _ found admitted
    refine ⟨_, found, rfl, isQueued, ?_, isQueued⟩
    simpa [System.view, nothing, basis] using isCurrent

theorem requestJobRevoke_spec :
    (revoking cfg).Spec (.requestJobRevoke job) (fun _ state => state = {})
      (requestJobRevoke cfg job) (fun _ _ _ => True) fun _ _ => True := by
  have free : (revoking cfg).Stable fun _ _ => True :=
    fun _ _ _ _ _ _ _ => trivial
  have stableFlag : ∀ count, (revoking cfg).Stable fun db state =>
      Updated cfg (.cascadeAncestorStatus job .queued) {} updatedTxn count db
        state ∧ FlagsQueued db state := fun count =>
    Setting.Extension.stable
      (Setting.stable_and (updated_stable count) flagsQueued_stable)
  have flag : (revoking cfg).Spec (.requestJobRevoke job)
      (fun db state => At cfg (.cascadeAncestorStatus job .queued) {}
          updatedTxn db state ∧ state.pending = [])
      (updateLive cfg (fun db row => row.id = job && db.running row)
        fun row => { row with terminationReason := revokeRequested })
      (fun count db state => Updated cfg (.cascadeAncestorStatus job .queued)
          {} updatedTxn count db state ∧ FlagsQueued db state)
      fun _ _ => True := by
    apply Setting.Extension.spec_within
    · exact .bind (.exec _) fun _ => .pure _
    · exact flag_spec fun _ _ _ _ _ _ _ => trivial
  have commits : ∀ count, (revoking cfg).Spec (.requestJobRevoke job)
      (fun db state => Updated cfg (.cascadeAncestorStatus job .queued) {}
          updatedTxn count db state ∧ FlagsQueued db state)
      (commit : Sql Unit) (fun _ _ _ => True) fun _ _ => True := by
    intro count
    apply Setting.Spec.commit (stableFlag count) free
    intro db state _ _ holds
    refine ⟨⟨⟨.clean, rfl, ?_⟩, holds.2⟩, trivial⟩
    by_cases none : count = 0
    · exact (holds.1.1 none).lawful
    · exact (holds.1.2 none).lawful
  refine .session ?_ (fun _ => free) free (fun _ => free) free
    (fun _ _ _ _ _ => trivial) fun _ _ _ _ => trivial
  apply Setting.Spec.bind free
  · apply flag.weaken
    intro db state _ initial
    subst initial
    refine ⟨?_, rfl⟩
    exact (at_initial db).mono (fun _ => updating_of_plain) rfl rfl
      (fun _ member => member) fun _ member => member
  · intro count
    apply Setting.Spec.bind free (commits count)
    exact fun _ => .pure free fun _ _ _ _ _ => trivial

/-- The completion a revoke poll makes. -/
abbrev revoked (job : JobId) (childPid : Nat)
    (attempt : Option AttemptHandle) : Call :=
  .markJobFailed job revokedError (revokedTraceback childPid) none "" attempt

theorem mayEnd_revoked {record : Record} {childPid : Nat}
    {attempt : Option AttemptHandle} :
    MayEnd (revoked job childPid attempt) record job attempt := by
  constructor
  · rintro handle rfl
    rfl
  · intro _
    exact judged_of_quiet rfl job

theorem Outer.pollRevoke (childPid : Nat) (attempt : Option AttemptHandle) :
    Outer cfg (revoked job childPid attempt)
      (pollRevoke cfg job childPid attempt) := by
  apply Outer.bind
  · exact Trans.session (Inner.read _).trans
  · intro requested
    cases requested with
    | false => exact .pure ()
    | true =>
        apply Outer.quietly
        intro record
        have failure : Failure (revoked job childPid attempt) job revokedError
            (revokedTraceback childPid) "" := .marked _ _ _ _ _ rfl
        exact (markJobFailed_spec mayEnd_revoked failure).strengthen
          (fun _ _ _ _ holds => holds.2) fun _ _ _ holds => holds

end Specs

/-! ## Every call keeps its promise -/

theorem revoking_verified (cfg : Config) :
    (revoking cfg).Verified fun _ _ _ _ => True := by
  intro call db state inv guarded initial
  subst initial
  cases call with
  | call known =>
      apply Setting.Extension.safe fun _ _ => trivial
      exact Setting.Safe.mono (fun _ _ _ _ _ => trivial)
        (backend_verified cfg known db {} inv guarded rfl)
  | requestJobRevoke job =>
      have free : (revoking cfg).Stable fun _ _ => True :=
        fun _ _ _ _ _ _ _ => trivial
      have spec : (revoking cfg).Spec (.requestJobRevoke job)
          (fun _ state => state = {}) (Result.flag <$> requestJobRevoke cfg job)
          (fun _ _ _ => True) fun _ _ => True :=
        .map requestJobRevoke_spec (fun _ => free) free
      exact Setting.Safe.mono (fun _ _ _ _ _ => trivial)
        (spec db {} inv guarded rfl)
  | pollRevoke job childPid attempt =>
      apply Setting.Extension.safe fun _ _ => trivial
      have spec : Outer cfg (revoked job childPid attempt)
          ((fun _ => Result.done) <$> pollRevoke cfg job childPid attempt) :=
        .map (.pollRevoke childPid attempt) _
      exact Setting.Safe.mono (fun _ _ _ _ _ => trivial)
        (spec {} db {} inv guarded (at_initial db))

end Sqlery.Standalone
