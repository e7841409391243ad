import Sqlery.Standalone.Calls
import Sqlery.Standalone.Footprints

/-!
# Completions, sweeps and new jobs leave recoverable rows
-/

namespace Sqlery.Standalone

open ReadCommitted
open Script

section Completions

variable {S : Scope} {cfg : Config}

/-- What was found is the job that was looked for. -/
def Finds (job : JobId) (found : Option Found) : Prop :=
  match found with
  | some (.live row) => row.id = job
  | some (.finished row) => row.id = job
  | _ => True

theorem readLive_finds {job : JobId} :
    S.KeepsWith (read fun db => db.live.get job) fun found =>
      ∀ row, found = some row → row.id = job :=
  .read fun _ _ _ isFound => Table.key_of_get isFound

theorem readHistory_finds {job : JobId} :
    S.KeepsWith (read fun db => db.historyOf job) fun found =>
      ∀ row, found = some row → row.id = job :=
  .read fun _ _ row isFound => by simpa using List.find?_some isFound

theorem getJobById_finds {job : JobId} :
    S.KeepsWith (getJobById cfg job) (Finds job) := by
  apply EmitsWith.session
  apply EmitsWith.bind readLive_finds
  intro found isJob
  cases found with
  | some row =>
      have shown : S.Keeps (openAttemptIfQueued row) := by
        unfold openAttemptIfQueued
        split
        · exact .read _
        · exact .pure _
      apply EmitsWith.after shown
      intro attempt
      have same : (overlayRunning row attempt).id = job := by
        cases attempt <;> exact isJob row rfl
      exact .pure same
  | none =>
      apply EmitsWith.bind readHistory_finds
      intro finished isJob
      cases finished with
      | some row => exact .pure (isJob row rfl)
      | none =>
          dsimp only
          split
          · apply EmitsWith.read
            intro db _
            cases db.staged.get job <;> trivial
          · exact .pure trivial

theorem getJobById_keeps {job : JobId} : S.Keeps (getJobById cfg job) :=
  getJobById_finds.forget

theorem findJob_finds {job : JobId} :
    S.KeepsWith (findJob job) (Finds job) := by
  apply EmitsWith.bind readLive_finds
  intro found isJob
  cases found with
  | some row => exact .pure (isJob row rfl)
  | none =>
      apply EmitsWith.read
      intro db _
      cases isFound : db.historyOf job with
      | none => trivial
      | some row => simpa [Finds] using List.find?_some isFound

theorem findJob_keeps {job : JobId} : S.Keeps (findJob job) :=
  findJob_finds.forget

theorem alreadyFinished_finds {row : Job} {version : Option Nat}
    {attempt : Option AttemptHandle} :
    S.KeepsWith (alreadyFinished row version attempt) (Finds row.id) := by
  unfold alreadyFinished
  split
  · exact .raise _
  · exact .pure rfl

/-- A failure that is recorded in place is one the scope admits. -/
theorem recordOutcome_keeps {job : JobId} {version : Option Nat}
    {status : Status} {values : Values}
    (finished : values.finishedAt.isSome)
    (admits : status = .failed →
      isRetryPending (values.terminationReason.getD "") = true →
      S.AdmitsFailure job) :
    S.Keeps (recordOutcome cfg job version status values) := by
  simp only [recordOutcome]
  split
  · rename_i inPlace
    simp only [Bool.and_eq_true, decide_eq_true_eq] at inPlace
    apply Emits.bind
    · apply keeps_updateLive
      intro db row isAdmitted
      simp only [Bool.and_eq_true, decide_eq_true_eq] at isAdmitted
      obtain ⟨finishedAt, isFinished⟩ := Option.isSome_iff_exists.mp finished
      apply admits inPlace.1 inPlace.2
      · exact isAdmitted.1
      · exact inPlace.1
      · simp [Values.update, isFinished]
    · exact fun updated => .pure _
  · exact finishIn_keeps

theorem fencedUpdate_finds {job : JobId} {version : Option Nat}
    {status : Status} {values : Values} {attempt : Option AttemptHandle}
    {outcome : Outcome} {parent : Option JobId}
    (finished : values.finishedAt.isSome)
    (admits : status = .failed →
      isRetryPending (values.terminationReason.getD "") = true →
      S.AdmitsFailure job) :
    S.KeepsWith (fencedUpdate cfg job version status values attempt outcome
      parent) (Finds job) := by
  apply EmitsWith.after closeAttempt_keeps
  intro _
  apply EmitsWith.after (recordOutcome_keeps finished admits)
  intro applied
  cases applied with
  | true =>
      exact .after .commit fun _ =>
        .after (.whenever releaseDependentsQuietly_keeps) fun _ =>
          findJob_finds
  | false =>
      apply EmitsWith.after .rollback
      intro _
      cases version with
      | some version => exact .raise _
      | none => exact .pure trivial

theorem markJob_finds {job : JobId} {version : Option Nat}
    {attempt : Option AttemptHandle} {outcome : Outcome}
    {mark : Job → Time → Job} {values : Job → Values}
    (finished : ∀ row now, (values (mark row now)).finishedAt.isSome)
    (admits : ∀ row now, (mark row now).status = .failed →
      isRetryPending ((values (mark row now)).terminationReason.getD "") =
        true → S.AdmitsFailure job) :
    S.KeepsWith (markJob cfg job version attempt outcome mark values)
      (Finds job) := by
  apply EmitsWith.bind getJobById_finds
  intro found isJob
  cases found with
  | none => exact .pure trivial
  | some found =>
      cases found with
      | staged row => exact .pure trivial
      | finished row =>
          have same : row.id = job := isJob
          exact same ▸ alreadyFinished_finds
      | live shown =>
          apply EmitsWith.session
          apply EmitsWith.after (.read _)
          intro live
          cases live with
          | none => exact .pure isJob
          | some row =>
              refine .after (.read _) fun running =>
                .after (.read _) fun now => fencedUpdate_finds ?_ ?_
              · have given := finished (overlayRunning row running) now
                cases running <;> exact given
              · have given := admits (overlayRunning row running) now
                cases running <;> exact given

theorem markJobSuccess_keeps {job : JobId} {output : String}
    {version : Option Nat} {attempt : Option AttemptHandle} :
    S.Keeps (markJobSuccess cfg job output version attempt) :=
  (markJob_finds (fun _ _ => rfl) fun _ _ failed => by cases failed).forget

theorem markJobFailed_finds {job : JobId}
    {error traceback reason : String} {version : Option Nat}
    {attempt : Option AttemptHandle}
    (admits : isRetryPending reason = true → S.AdmitsFailure job) :
    S.KeepsWith
      (markJobFailed cfg job error traceback version reason attempt)
      (Finds job) :=
  markJob_finds (fun _ _ => rfl) fun _ _ _ pending => admits pending

theorem cancelJob_keeps {job : JobId} : S.Keeps (cancelJob cfg job) := by
  apply Emits.session
  apply Emits.bind
  · apply Emits.bind (.read _)
    intro found
    cases found with
    | none => exact .pure _
    | some row =>
        refine .bind deleteReadyWhere_keeps fun _ =>
          .bind deleteBlockedStmt_keeps fun _ =>
            .bind finishIn_keeps fun cancelled => ?_
        cases cancelled
        · exact .bind .rollback fun _ => .pure _
        · exact .bind .commit fun _ =>
            .bind releaseDependentsQuietly_keeps fun _ => .pure _
  · intro cancelled
    cases cancelled with
    | true => exact .pure _
    | false =>
        split
        · cases ‹false = true›
        · split
          · apply Emits.bind (.read _)
            intro staged
            cases staged with
            | none => exact .pure _
            | some row =>
                exact .bind (.bind (keeps_dml fun _ => rfl) fun _ =>
                  .pure _) fun _ => .bind .commit fun _ => .pure _
          · exact .pure _

theorem expireQueuedJob_keeps {job : Job} {error reason : String} :
    S.Keeps (expireQueuedJob cfg job error reason) := by
  apply Emits.bind
  · apply Emits.session
    refine .bind (.read _) fun _ => .bind failQueued_keeps fun failed => ?_
    cases failed
    · exact .bind .rollback fun _ => .pure _
    · exact .bind .commit fun _ => .pure _
  · intro done
    exact .bind (.whenever releaseDependentsQuietly_keeps) fun _ => .pure _

theorem failZombieIn_keeps {job : JobId} {reason : String} :
    S.Keeps (failZombieIn cfg job reason) := by
  apply Emits.bind (.read _)
  intro found
  cases found with
  | none => exact .pure _
  | some row =>
      apply Emits.bind (.read _)
      intro running
      cases running with
      | none => exact .pure _
      | some attempt =>
          apply Emits.bind (.read _)
          intro now
          apply Emits.bind closeWhere_keeps
          intro closed
          split
          · exact .bind .rollback fun _ => .pure _
          · refine .bind (.read _) fun _ => .bind finishIn_keeps
              fun moved => ?_
            cases moved
            · exact .bind .rollback fun _ => .pure _
            · exact .bind .commit fun _ => .pure _

theorem failZombieJob_keeps {job : JobId} {reason : String} :
    S.Keeps (failZombieJob cfg job reason) := by
  apply Emits.bind (.session failZombieIn_keeps)
  intro failed
  cases failed with
  | none => exact .pure _
  | some parent =>
      exact .bind releaseDependentsQuietly_keeps fun _ => .pure _

theorem finishFailed_keeps {job : JobId} {status : Status} :
    S.Keeps (finishFailed cfg job status) := by
  apply Emits.session
  apply Emits.bind (.read _)
  intro found
  cases found with
  | none => exact .pure _
  | some row => exact .bind finishIn_keeps fun _ => .commit

/-- An ancestor given a final status is moved. -/
theorem cascadeAncestorStatus_keeps {job : JobId} {status : Status}
    (final : isTerminal status = true) :
    S.Keeps (cascadeAncestorStatus cfg job status) := by
  apply Emits.session
  apply Emits.bind (.read _)
  intro parent
  refine .bind ?_ fun _ => .commit
  suffices ∀ fuel seen current,
      S.Keeps (cascadeLoop cfg status fuel seen current) from this _ _ _
  intro fuel
  induction fuel with
  | zero => exact fun _ _ => .diverge
  | succ fuel ih =>
      intro seen current
      cases current with
      | none => exact .pure _
      | some ancestor =>
          simp only [cascadeLoop]
          split
          · exact .pure _
          · apply Emits.bind (.read _)
            intro found
            cases found with
            | none => exact .pure _
            | some row =>
                apply Emits.bind
                · simp only [cascadeOne, final, if_true]
                  exact .bind finishIn_keeps fun _ => .pure _
                · exact fun _ => ih _ _

theorem settleRow_keeps {stray : Job} {expired : Bool} :
    S.Keeps (settleRow cfg stray expired) := by
  apply Emits.bind
  · unfold currentStray
    split
    · exact .read _
    · exact .pure _
  · intro current
    cases current with
    | none => exact .raise _
    | some job =>
        apply Emits.bind (.read _)
        intro hasRetry
        split
        · exact .pure _
        · exact .bind finishIn_keeps fun _ => .bind .commit fun _ =>
            .bind (.whenever releaseDependentsQuietly_keeps) fun _ =>
              .pure _

theorem settleLoop_keeps (rows : List Job) (expired : Bool) (moved : Nat) :
    (settleLoop cfg rows expired moved).Emits S.sees S.emits Aside
      fun _ => True := by
  induction rows generalizing expired moved with
  | nil => trivial
  | cons job rest ih =>
      apply Prog.Emits.bind settleRow_keeps
      intro result _
      cases result with
      | error exception => trivial
      | ok settled =>
          cases settled with
          | none => exact ih _ _
          | some ok => exact ih _ _

theorem settleFinishedJobs_keeps {limit : Nat} :
    S.Keeps (settleFinishedJobs cfg limit) :=
  .bind (.read _) fun _ => .session (.bind (.read _) fun _ =>
    Prog.Emits.bind (settleLoop_keeps _ _ _) fun _ _ => Emits.done _)

theorem releaseJob_keeps {job : JobId} : S.Keeps (releaseJob cfg job) := by
  apply Emits.session
  apply Emits.bind (.read _)
  intro found
  cases found with
  | none => exact .pure _
  | some row =>
      refine .bind (.read _) fun _ => .bind closeWhere_keeps
        fun closed => ?_
      split
      · exact .rollback
      · exact .bind writeReady_keeps fun _ => .commit

/-- A claim released with a final status is moved. -/
theorem releaseClaimedJob_keeps {job : Job} {worker : String}
    {status : Status} {processed : Nat} {kwargs : Values}
    (final : isTerminal status = true) :
    S.Keeps (releaseClaimedJob cfg job worker status processed kwargs) := by
  apply Emits.bind
  · apply Emits.session
    apply Emits.bind (.read _)
    intro found
    apply Emits.bind
    · cases found with
      | none => exact .pure _
      | some row =>
          refine .bind (.read _) fun _ => .bind closeAttempt_keeps fun _ =>
            .bind (.read _) fun _ => ?_
          simp only [final, if_true]
          exact .bind finishIn_keeps fun _ => .pure _
    · intro _
      apply Emits.bind
      · apply Emits.bind (.read _)
        intro known
        cases known with
        | none => exact .pure _
        | some row =>
            exact .bind (.read _) fun _ =>
              .bind (keeps_dml fun _ => rfl) fun _ => .pure _
      · intro _
        apply Emits.bind .commit
        intro _
        cases found with
        | none => exact .pure _
        | some row =>
            apply Emits.bind
            · apply Emits.whenever
              apply Emits.bind (.read _)
              intro again
              cases again with
              | none => exact .raise _
              | some row => exact .pure _
            · exact fun _ => .bind findJob_keeps fun _ => .pure _
  · intro outcome
    split
    · exact .bind (.whenever releaseDependentsQuietly_keeps) fun _ =>
        .pure _
    · exact .pure _

theorem maintainReadyQueue_keeps {queues : List String} {limit : Nat}
    {after : JobId} :
    S.Keeps (maintainReadyQueue cfg queues limit after) := by
  apply Emits.bind settleFinishedJobs_keeps
  intro settled
  apply Emits.bind
  · apply Emits.session
    refine .bind (.read _) fun lost => .bind (.whenever writeReady_keeps)
      fun _ => ?_
    apply Emits.bind
    · unfold staleEntries
      split
      · exact keeps_locking fun _ _ _ _ ran => by
          cases ran; exact ⟨rfl, rfl⟩
      · exact .read _
    · intro stale
      apply Emits.bind
      · suffices ∀ dropped, S.Keeps (dropStale cfg stale dropped) from this 0
        induction stale with
        | nil => exact fun dropped => .pure _
        | cons entry rest ih =>
            exact fun dropped => .bind deleteReadyWhere_keeps fun _ => ih _
      · exact fun dropped => .bind .commit fun _ =>
          .bind (.read _) fun _ => .pure _
  · intro repaired
    exact .bind (.each fun _ _ => recheckBlockedQuietly_keeps) fun _ =>
      .pure _

/-! ## New jobs and retries -/

theorem generateJobId_keeps : S.Keeps generateJobId := by
  apply keeps_exec
  intro snapshot current others effect ran
  cases ran
  constructor
  · intro write member
    cases member
  · intro write member
    rw [List.mem_singleton.mp member]
    exact fun db => rfl

theorem insertLive_keeps {job : Job} (admits : S.emits (.insertLive job)) :
    S.Keeps (insertLive cfg job) := by
  apply Emits.exec
  intro snapshot current others effect _ _ ran
  cases ran
  refine ⟨fun write member => ?_, fun write member => by cases member⟩
  rw [List.mem_singleton.mp member]
  exact admits

theorem ensureEntry_keeps {job : Job} : S.Keeps (ensureEntry cfg job) :=
  .bind writeReady_keeps fun _ => updateReadyStmt_keeps

theorem flushNew_keeps {spec : JobSpec} {createdAt : Time}
    (new : S.AdmitsNew spec) : S.Keeps (flushNew cfg spec createdAt) :=
  .bind generateJobId_keeps fun id => .bind ensureEntry_keeps fun _ =>
    .bind (insertLive_keeps (new.live id createdAt)) fun _ => .pure _

theorem refresh_keeps {job : Job} : S.Keeps (refresh job) := by
  apply Emits.bind (.read _)
  intro found
  cases found with
  | some row => exact .pure _
  | none => exact .raise _

theorem replaceConflicting_keeps {spec : JobSpec} :
    S.Keeps (replaceConflicting cfg spec) := by
  unfold replaceConflicting
  split
  · exact .pure _
  · split
    · exact .pure _
    · apply Emits.bind
      · apply Emits.session
        refine .bind (.read _) fun _ => .bind (.whenever dropEntries_keeps)
          fun _ => .bind (.each fun job _ => ?_) fun _ =>
            .bind .commit fun _ => .pure _
        exact .bind (keeps_dml fun _ => rfl) fun _ => .pure _
      · exact fun replaced =>
          .each fun _ _ => releaseDependentsQuietly_keeps

theorem createJob_keeps {spec : JobSpec} (new : S.AdmitsNew spec) :
    S.Keeps (createJob cfg spec) := by
  refine .bind replaceConflicting_keeps fun _ => .bind (.read _) fun now =>
    .bind (.read _) fun createdAt => ?_
  split
  · apply Emits.session
    apply Emits.bind generateJobId_keeps
    intro id
    apply Emits.bind
    · apply Emits.exec
      intro snapshot current others effect _ _ ran
      cases ran
      refine ⟨fun write member => ?_, fun write member => by cases member⟩
      rw [List.mem_singleton.mp member]
      exact new.staged id createdAt
    · intro _
      refine .bind .commit fun _ => .bind (.read _) fun stored => ?_
      cases stored with
      | some row => exact .pure _
      | none => exact .raise _
  · exact .session (.bind (flushNew_keeps new) fun _ => .bind .commit fun _ =>
      .bind refresh_keeps fun _ => .pure _)

theorem setNextRun_keeps {admits : ScheduledTask → Bool} {next : Time} :
    S.Keeps (setNextRun cfg admits next) :=
  .bind (keeps_dml fun _ => rfl) fun _ => .pure _

theorem advanceScheduledTaskIfDue_keeps {task : Nat}
    {observed next : Time} {spec : JobSpec} (new : S.AdmitsNew spec) :
    S.Keeps (advanceScheduledTaskIfDue cfg task observed next spec) := by
  apply Emits.session
  apply Emits.bind
  · unfold winTask
    split
    · apply Emits.bind
      · exact keeps_locking fun _ _ _ _ ran => by cases ran; exact ⟨rfl, rfl⟩
      · intro locked
        split <;> exact .pure _
    · exact .bind setNextRun_keeps fun _ => .pure _
  · intro won
    cases won with
    | false => exact .pure _
    | true =>
        refine .bind (.read _) fun createdAt =>
          .bind generateJobId_keeps fun id =>
          .bind ensureEntry_keeps fun _ => .bind ?_ fun _ =>
            .bind (insertLive_keeps (new.live id createdAt)) fun _ =>
              .bind .commit fun _ => .bind refresh_keeps fun _ => .pure _
        unfold flushTask
        split
        · exact .bind setNextRun_keeps fun _ => .pure _
        · exact .pure _

theorem retryJob_keeps {failed : Job}
    (new : ∀ now, S.AdmitsNew (retrySpec cfg failed now)) :
    S.Keeps (retryJob cfg failed) := by
  have bookkeeping : S.Keeps (finishRetryBookkeeping cfg failed) :=
    .bind (.quietly finishFailed_keeps) fun _ =>
      .quietly finishFailed_keeps
  apply Emits.bind (.session (.observe _ _))
  intro found
  cases found with
  | some existing => exact .bind bookkeeping fun _ => .pure _
  | none =>
      exact .bind (.read _) fun now => .bind (createJob_keeps (new now))
        fun _ => .bind bookkeeping fun _ => .pure _

theorem jobOf_finds {job : JobId} {found : Option Found}
    (finds : Finds job found) :
    S.KeepsWith (jobOf found) fun row => row.id = job := by
  unfold jobOf
  split
  · exact .pure finds
  · exact .pure finds
  · exact .raise _
  · exact .raise _

/-- The retry of a failure is a retry of the job that failed. -/
theorem failExecution_keeps {job : Job} {attempt : AttemptHandle}
    {error traceback : String} {willRetry : Bool}
    (admits : willRetry = true → S.AdmitsFailure job.id)
    (new : willRetry = true → ∀ failed now, failed.id = job.id →
      S.AdmitsNew (retrySpec cfg failed now)) :
    S.Keeps (failExecution cfg job attempt error traceback willRetry) := by
  apply Emits.quietly
  cases willRetry with
  | false =>
      exact .bindWith (markJobFailed_finds fun pending => by cases pending)
        fun _ _ => .pure _
  | true =>
      refine .bindWith (markJobFailed_finds fun _ => admits rfl)
        fun found finds => .bindWith (jobOf_finds finds) fun failed isJob => ?_
      exact .bind (retryJob_keeps fun now => new rfl failed now isJob)
        fun _ => .pure _

/-- The sweep retries jobs it has seen in the live table as failed ones. -/
theorem recoverLostRetries_keeps {grace : Time} {limit : Nat}
    (new : ∀ db cutoff, S.sees db →
      ∀ failed ∈ jobsPendingRetry cfg cutoff limit db,
        ∀ now, S.AdmitsNew (retrySpec cfg failed now)) :
    S.Keeps (recoverLostRetries cfg grace limit) := by
  apply Emits.bind (.read _)
  intro now
  have found : S.KeepsWith
      (Script.session (read (jobsPendingRetry cfg (now - grace) limit)))
      fun pending => ∀ failed ∈ pending,
        ∀ now, S.AdmitsNew (retrySpec cfg failed now) :=
    .session (.read fun db seen => new db _ seen)
  refine .bindWith found fun pending admitted => .each fun job member => ?_
  apply Emits.quietly
  split
  · exact .bind (.observe _ _) fun _ =>
      .bind (retryJob_keeps (admitted job member)) fun _ => .pure _
  · exact finishFailed_keeps

theorem cleanupStaleJobs_keeps {queue : Option String}
    (admits : ∀ job, S.AdmitsFailure job)
    (new : ∀ failed now, S.AdmitsNew (retrySpec cfg failed now)) :
    S.Keeps (cleanupStaleJobs cfg queue) := by
  refine .bind (.read _) fun _ => .bind (.session (.observe _ _)) fun _ =>
    .each fun pair _ => ?_
  unfold cleanupOne
  split
  · exact .bindWith (markJobFailed_finds fun _ => admits _) fun _ _ =>
      .pure _
  · split
    · refine .bindWith (markJobFailed_finds fun _ => admits _) fun _ _ =>
        .bindWith getJobById_finds fun found finds =>
          .bindWith (jobOf_finds finds) fun again _ => ?_
      split
      · exact .bind (.observe _ _) fun _ =>
          .bind (retryJob_keeps (new again)) fun _ => .pure _
      · exact .pure _
    · exact .pure _

/-! ## All calls -/

variable (S cfg) in
/-- What a scope has to admit of a call. -/
def Scope.Admits : Call → Prop
  | .markJobFailed jobId _ _ _ reason _ =>
      isRetryPending reason = true → S.AdmitsFailure jobId
  | .cascadeAncestorStatus _ status => isTerminal status = true
  | .releaseClaimedJob _ _ status _ _ => isTerminal status = true
  | .createJob spec => S.AdmitsNew spec
  | .advanceScheduledTaskIfDue _ _ _ spec => S.AdmitsNew spec
  | .failExecution job _ _ _ willRetry => willRetry = true →
      S.AdmitsFailure job.id ∧ ∀ failed now, failed.id = job.id →
        S.AdmitsNew (retrySpec cfg failed now)
  | .recoverLostRetries _ limit => ∀ db cutoff, S.sees db →
      ∀ failed ∈ jobsPendingRetry cfg cutoff limit db,
        ∀ now, S.AdmitsNew (retrySpec cfg failed now)
  | .cleanupStaleJobs _ => (∀ job, S.AdmitsFailure job) ∧
      ∀ failed now, S.AdmitsNew (retrySpec cfg failed now)
  | _ => True

theorem scriptOf_keeps {call : Call} (admits : S.Admits cfg call) :
    S.Keeps (scriptOf cfg call) := by
  cases call with
  | claimJob => exact .map claimJob_keeps
  | claimJobById => exact .map claimJobById_keeps
  | atomicClaimJob => exact .map atomicClaimJob_keeps
  | aclaimJob => exact .map aclaimJob_keeps
  | amarkRunning => exact .map amarkRunning_keeps
  | blockJob => exact .map blockJob_keeps
  | markJobSuccess => exact .map markJobSuccess_keeps
  | markJobFailed => exact .map (markJobFailed_finds admits).forget
  | cancelJob => exact .map cancelJob_keeps
  | expireQueuedJob => exact .map expireQueuedJob_keeps
  | failZombieJob => exact .map failZombieJob_keeps
  | markJobArchived => exact .map finishFailed_keeps
  | settleRetryPending => exact .map finishFailed_keeps
  | cascadeAncestorStatus =>
      exact .map (cascadeAncestorStatus_keeps admits)
  | settleFinishedJobs => exact .map settleFinishedJobs_keeps
  | releaseJob => exact .map releaseJob_keeps
  | releaseClaimedJob => exact .map (releaseClaimedJob_keeps admits)
  | maintainReadyQueue => exact .map maintainReadyQueue_keeps
  | releaseDependents => exact .map releaseDependents_keeps
  | recheckBlocked => exact .map recheckBlocked_keeps
  | createJob => exact .map (createJob_keeps admits)
  | advanceScheduledTaskIfDue =>
      exact .map (advanceScheduledTaskIfDue_keeps admits)
  | failExecution =>
      exact .map (failExecution_keeps (fun retried => (admits retried).1)
        fun retried => (admits retried).2)
  | recoverLostRetries => exact .map (recoverLostRetries_keeps admits)
  | cleanupStaleJobs =>
      exact .map (cleanupStaleJobs_keeps admits.1 admits.2)

end Completions

end Sqlery.Standalone
