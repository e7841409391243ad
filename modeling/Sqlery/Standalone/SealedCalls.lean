import Sqlery.Standalone.Calls
import Sqlery.Standalone.Sealing

/-!
# The calls commit sealed transactions
-/

namespace Sqlery.Standalone

open ReadCommitted
open Setting (Yields Ends Lasts)
open Script

section Statements

variable {cfg : Config} {whole : Bool}

theorem closeWhere_seals {admits : Attempt → Bool} {now : Time}
    {outcome : Outcome} : Seals cfg whole (closeWhere cfg admits now outcome) :=
  .bind (seals_dml fun _ => rfl) fun _ => .pure _

theorem deleteReadyWhere_seals {admits : Ready → Bool} :
    Seals cfg whole (deleteReadyWhere cfg admits) :=
  .bind (seals_dml fun _ => rfl) fun _ => .pure _

theorem deleteBlockedStmt_seals {jobs : List JobId} :
    Seals cfg whole (deleteBlockedStmt cfg jobs) :=
  .bind (seals_dml fun _ => rfl) fun _ => .pure _

theorem dropEntries_seals {jobs : List JobId} :
    Seals cfg whole (dropEntries cfg jobs) :=
  .bind deleteReadyWhere_seals fun _ =>
    .bind deleteBlockedStmt_seals fun _ => .pure _

theorem updateReadyStmt_seals {job : Job} :
    Seals cfg whole (updateReadyStmt cfg job) :=
  .bind (seals_dml fun _ => rfl) fun _ => .pure _

theorem writeReady_seals {jobs : List Job} {fresh : Bool} :
    Seals cfg whole (writeReady cfg jobs fresh) := by
  apply Seals.bind
  · unfold runningAmong
    split
    · exact .pure _
    · exact .read _
  · intro running
    dsimp only
    split
    · exact .pure _
    · apply Seals.bind
      · unfold writerSlot
        split
        · exact .read _
        · exact .pure _
      · intro slot
        exact seals_insertUnlessFound (fun _ => rfl) fun _ => rfl

theorem insertBlockedStmt_seals {rows : List Blocked} :
    Seals cfg whole (insertBlockedStmt cfg rows) :=
  seals_insertUnlessFound (fun _ => rfl) fun _ => rfl

theorem closeAttempt_seals {job : JobId} {attempt : Option AttemptHandle}
    {outcome : Outcome} :
    Seals cfg whole (closeAttempt cfg job attempt outcome) := by
  apply Seals.bind (.read _)
  intro now
  cases attempt with
  | none => exact .bind closeWhere_seals fun _ => .pure _
  | some handle =>
      apply Seals.bind closeWhere_seals
      intro rowcount
      split
      · exact .pure _
      · exact .raise _

theorem failQueued_seals {job : Job} {error reason : String} {now : Time} :
    Seals cfg false (failQueued cfg job error reason now) :=
  .bind deleteReadyWhere_seals fun _ =>
    .bind deleteBlockedStmt_seals fun _ => finishIn_seals

/-! ## Dependents -/

theorem newestRetry_seals {latest : JobId → Sql (Option Job)}
    (reads : ∀ job, Seals cfg whole (latest job)) (hops : Nat) (dep : Job) :
    Seals cfg whole (newestRetry latest hops dep) := by
  induction hops generalizing dep with
  | zero => exact .pure _
  | succ hops ih =>
      simp only [newestRetry]
      split
      · apply Seals.bind (reads _)
        intro found
        cases found with
        | none => exact .pure _
        | some child => exact ih child
      · exact .pure _

theorem judgeDependencies_seals {deps : List JobId}
    {fetch : JobId → Option Job} {latest : JobId → Sql (Option Job)}
    (reads : ∀ job, Seals cfg whole (latest job)) :
    Seals cfg whole (judgeDependencies deps fetch latest) := by
  suffices ∀ failed pending,
      Seals cfg whole
        (judgeFrom fetch latest deps failed pending) from this [] false
  induction deps with
  | nil => exact fun failed pending => .pure _
  | cons dep rest ih =>
      intro failed pending
      simp only [judgeFrom]
      split
      · exact ih _ _
      · apply Seals.bind (newestRetry_seals reads _ _)
        intro newest
        split
        · exact ih _ _
        · split
          · exact ih _ _
          · exact ih _ _

theorem judge_seals {deps : List JobId} : Seals cfg whole (judge deps) :=
  .bind (.read _) fun _ => judgeDependencies_seals fun _ => .read _

theorem ifWaiting_seals {found : Option Job} :
    Seals cfg whole (ifWaiting found) := by
  cases found with
  | none => exact .pure _
  | some job =>
      simp only [ifWaiting]
      split
      · exact .pure _
      · exact .bind (.read _) fun _ => .pure _

theorem recheckBlocked_seals {job : JobId} {createdAt : Time} :
    Seals cfg whole (recheckBlocked cfg job createdAt) := by
  apply Seals.session
  apply Seals.bind (.read _)
  intro found
  apply Seals.bind ifWaiting_seals
  intro waiting
  cases waiting with
  | none =>
      exact .bind deleteBlockedStmt_seals fun _ =>
        .bind .commit fun _ => .pure _
  | some row =>
      apply Seals.bind judge_seals
      intro verdict
      split
      · exact .bind .commit fun _ => .pure _
      · exact .bind (.read _) fun _ => .bind failQueued_seals fun _ =>
          .bind .commit fun _ => .pure _
      · exact .bind deleteBlockedStmt_seals fun _ =>
          .bind writeReady_seals fun _ => .bind .commit fun _ => .pure _

theorem ancestorIds_seals (hops : Nat) (ids : List JobId)
    (parent : Option JobId) :
    Seals cfg whole (ancestorIds hops ids parent) := by
  induction hops generalizing ids parent with
  | zero => exact .pure _
  | succ hops ih =>
      cases parent with
      | none => exact .pure _
      | some job =>
          simp only [ancestorIds]
          split
          · exact .pure _
          · exact .bind (.read _) fun next => ih _ next

theorem recheckAll_seals (dependents : List (JobId × Time))
    (released : Nat) (work : Work) :
    Seals cfg whole (recheckAll cfg dependents released work) := by
  induction dependents generalizing released work with
  | nil => exact .pure _
  | cons dependent rest ih =>
      apply Seals.bind recheckBlocked_seals
      intro outcome
      cases outcome <;> exact ih _ _

theorem releaseDependents_seals {job : JobId} {parent : Option JobId} :
    Seals cfg whole (releaseDependents cfg job parent) := by
  suffices ∀ fuel work seen released,
      Seals cfg whole
        (releaseLoop cfg fuel work seen released) from this _ _ _ _
  intro fuel
  induction fuel with
  | zero => exact fun _ _ _ => .diverge
  | succ fuel ih =>
      intro work seen released
      simp only [releaseLoop]
      split
      · exact .pure _
      · split
        · exact ih _ _ _
        · apply Seals.bind
          · exact .session (.bind (ancestorIds_seals _ _ _) fun _ =>
              .read _)
          · intro dependents
            exact .bind (recheckAll_seals _ _ _) fun _ => ih _ _ _

theorem releaseDependentsQuietly_seals {job : JobId}
    {parent : Option JobId} :
    Seals cfg whole (releaseDependentsQuietly cfg job parent) :=
  .quietly releaseDependents_seals

theorem recheckBlockedQuietly_seals {job : JobId} {createdAt : Time} :
    Seals cfg whole (recheckBlockedQuietly cfg job createdAt) :=
  .quietly recheckBlocked_seals

/-! ## Claims -/

theorem overLimit_seals {now : Time} (tags : List String) :
    Seals cfg whole (overLimit cfg now tags) := by
  induction tags with
  | nil => exact .pure _
  | cons tag rest ih =>
      simp only [overLimit]
      apply Seals.bind
      · unfold overConcurrency
        split
        · exact .pure _
        · exact .bind (.read _) fun _ => .pure _
      · intro concurrency
        split
        · exact .pure _
        · apply Seals.bind
          · unfold overRate
            split
            · exact .bind (.read _) fun _ => .pure _
            · exact .pure _
          · intro rate
            split
            · exact .pure _
            · exact ih

theorem tryTagLocks_seals (tags : List String) :
    Seals cfg whole (tryTagLocks tags) := by
  induction tags with
  | nil => exact .pure _
  | cons tag rest ih =>
      apply Seals.bind
      · apply Seals.exec
        intro snapshot current others effect ran
        split at ran <;> cases ran <;> simp
      · intro locked
        cases locked
        · exact .pure _
        · exact ih

theorem tagLimited_seals {job : Job} {now : Time} :
    Seals cfg whole (tagLimited cfg job now) := by
  simp only [tagLimited]
  split
  · exact .pure _
  · apply Seals.bind
    · unfold lockTags
      split
      · exact tryTagLocks_seals _
      · exact .pure _
    · intro locked
      cases locked
      · exact .pure _
      · exact overLimit_seals _

theorem claimDecision_seals {job : Job} {now : Time} :
    Seals cfg false (claimDecision cfg job now) := by
  simp only [claimDecision]
  split
  · exact .bind failQueued_seals fun _ => .pure _
  · split
    · exact .pure _
    · apply Seals.bind judge_seals
      intro verdict
      split
      · exact .bind failQueued_seals fun _ => .pure _
      · exact .pure _
      · exact .pure _

/-- An attempt is opened and the transaction ends. -/
theorem opening_seals {α : Type} {job : Job} {worker : Option WorkerId}
    {now : Time} {next : Option AttemptHandle × ClaimOutcome → Sql α}
    (rest : ∀ started, (backend cfg).Yields (sealing cfg) (Sealed cfg)
      (next started) (fun _ => Shut cfg) fun _ => Escaping cfg false) :
    Seals cfg false (startAttempt cfg job worker now >>= next) :=
  Yields.bind Seals.chains Seals.lasts_escaping startAttempt_seals rest

theorem commit_opened {α : Type} (value : α) :
    (backend cfg).Yields (sealing cfg) (Sealed cfg)
      (do commit; pure value : Sql α) (fun _ => Shut cfg)
      fun _ => Escaping cfg whole :=
  Yields.bind Seals.chains Seals.lasts_escaping
    (Seals.commit_of lasts_sealed fun _ _ holds => holds) fun _ =>
      Seals.pure _

theorem rollback_opened {α : Type} (value : α) :
    (backend cfg).Yields (sealing cfg) (Sealed cfg)
      (do rollback; pure value : Sql α) (fun _ => Shut cfg)
      fun _ => Escaping cfg whole :=
  Yields.bind Seals.chains Seals.lasts_escaping
    (Seals.rollback_of lasts_sealed) fun _ => Seals.pure _

theorem takeEntry_seals {entry : Ready} {job : Job}
    {worker : Option WorkerId} {now : Time} :
    Seals cfg false (takeEntry cfg entry job worker now) := by
  apply Seals.bind deleteReadyWhere_seals
  intro deleted
  split
  · exact .bind .commit fun _ => .pure _
  · apply opening_seals
    intro started
    split
    · exact commit_opened _
    · exact rollback_opened _
    · exact commit_opened _

theorem moveToBlocked_seals {entry : Ready} {job : Job} {now : Time} :
    Seals cfg whole (moveToBlocked cfg entry job now) := by
  simp only [moveToBlocked]
  split
  · exact .pure _
  · apply Seals.bind deleteReadyWhere_seals
    intro deleted
    split
    · exact .bind insertBlockedStmt_seals fun _ => .pure _
    · exact .pure _

theorem claimCandidate_seals {entry : Ready} {job : Job}
    {worker : Option WorkerId} {now : Time} :
    Seals cfg false (claimCandidate cfg entry job worker now) := by
  apply Seals.bind claimDecision_seals
  intro decision
  cases decision with
  | ok =>
      apply Seals.bind tagLimited_seals
      intro limited
      cases limited
      · exact takeEntry_seals
      · exact .bind .commit fun _ => .pure _
  | pending =>
      exact .bind (.read _) fun _ => .bind moveToBlocked_seals fun _ =>
        .bind .commit fun _ => .pure _
  | expired =>
      exact .bind deleteReadyWhere_seals fun _ =>
        .bind .commit fun _ => .pure _
  | failed =>
      exact .bind deleteReadyWhere_seals fun _ =>
        .bind .commit fun _ => .pure _

theorem claimRound_seals {queues : List String} {now : Time} {byId : Bool}
    {candidate : Ready → Job → Sql Round} {cursor : Option Cursor}
    (judges : ∀ entry job, Seals cfg false (candidate entry job)) :
    Seals cfg false (claimRound cfg queues now byId candidate cursor) := by
  apply Seals.bind
  · unfold nextEntryStmt
    split
    · exact .bind (seals_locking fun _ _ _ _ ran => by
        cases ran; exact ⟨rfl, rfl⟩) fun _ => .pure _
    · exact .read _
  · intro entry
    cases entry with
    | none => exact .bind .commit fun _ => .pure _
    | some entry =>
        apply Seals.bind
        · apply Seals.bind (.read _)
          intro found
          cases found with
          | some job => exact .pure _
          | none =>
              dsimp only
              split
              · exact .read _
              · exact .pure _
        · intro found
          apply Seals.bind ifWaiting_seals
          intro waiting
          cases waiting with
          | none =>
              exact .bind deleteReadyWhere_seals fun _ =>
                .bind .commit fun _ => .pure _
          | some job => exact judges entry job

/-- Whatever a round leaves pending is lost after the loop. -/
theorem claimLoop_seals {round : Option Cursor → Sql Round}
    (judges : ∀ cursor, Seals cfg false (round cursor)) (fuel : Nat)
    (cursor : Option Cursor) (trail : Trail) (db : Db) (state : Loc)
    (good : (backend cfg).Fine (sealing cfg) db)
    (guarded : Guarded (schema cfg.dialect) state)
    (shut : Shut cfg db state) :
    (backend cfg).Ends (sealing cfg) (fun _ _ _ => True)
      (claimLoop round fuel cursor trail) db state := by
  induction fuel generalizing cursor trail db state with
  | zero => trivial
  | succ fuel ih =>
      refine Ends.bind Seals.chains ?_ good guarded
        (judges cursor db state good guarded shut)
      intro result db state good guarded holds
      cases result with
      | error exception => exact fun _ _ => trivial
      | ok round =>
          cases round with
          | stop claimed => exact fun _ _ => trivial
          | again next blocked failed =>
              exact ih _ _ _ _ good guarded holds

theorem followUp_seals (trail : Trail) :
    Seals cfg true (followUp cfg trail) :=
  .bind (.each fun _ _ => recheckBlockedQuietly_seals) fun _ =>
    .each fun _ _ => releaseDependentsQuietly_seals

theorem claimJob_seals {queues : List String} {worker : String} :
    Seals cfg true (claimJob cfg queues worker) := by
  apply Seals.bind (.read _)
  intro now db state good guarded shut
  refine Ends.bind Seals.chains ?_ good guarded (claimLoop_seals
    (fun _ => claimRound_seals fun _ _ => claimCandidate_seals)
    _ _ _ db state good guarded shut)
  intro outcome db state good guarded _ after mild
  have followed := followUp_seals outcome.2 after state.rolledBack mild.fine
    (Setting.guarded_rolledBack state) (shut_of_idle rfl)
  refine Ends.bind Seals.chains ?_ mild.fine
    (Setting.guarded_rolledBack state) followed
  intro result db state good guarded followed
  have shut : Shut cfg db state := by
    cases result with
    | ok value => exact followed
    | error exception => exact followed rfl
  intro last later
  have here := Seals.lasts db last state later good guarded shut
  cases outcome.1 with
  | ok claimed => exact here
  | error exception => exact fun _ => here

theorem claimJobById_seals {job : JobId} {worker : String} :
    Seals cfg whole (claimJobById cfg job worker) := by
  apply Seals.session
  apply Seals.bind
  · unfold lockEntries
    split
    · apply Seals.bind
      · exact seals_locking fun _ _ _ _ ran => by
          cases ran; exact ⟨rfl, rfl⟩
      · intro held
        dsimp only
        split
        · exact .bind (.read _) fun _ => .pure _
        · exact .pure _
    · exact .pure _
  · intro locked
    cases locked
    · exact .bind .commit fun _ => .pure _
    · apply Seals.bind (.read _)
      intro found
      apply Seals.bind ifWaiting_seals
      intro waiting
      cases waiting with
      | none => exact .bind .commit fun _ => .pure _
      | some row =>
          refine .bind deleteReadyWhere_seals fun _ =>
            .bind deleteBlockedStmt_seals fun _ => .bind (.read _) fun _ =>
              opening_seals fun started => ?_
          split
          · exact commit_opened _
          · exact rollback_opened _

theorem atomicClaimJob_seals {job : Job} {worker : Option WorkerId} :
    Seals cfg whole (atomicClaimJob cfg job worker) := by
  apply Seals.session
  apply Seals.bind deleteReadyWhere_seals
  intro deleted
  split
  · exact .bind .commit fun _ => .pure _
  · refine .bind (.read _) fun _ => opening_seals fun started => ?_
    split
    · exact commit_opened _
    · exact rollback_opened _
    · exact commit_opened _

theorem registeredWorkerId_seals {worker : String} :
    Seals cfg whole (registeredWorkerId cfg worker) := by
  unfold registeredWorkerId
  split
  · exact .pure _
  · exact .read _

theorem aclaimJob_seals {queues : List String} {worker : String} :
    Seals cfg whole (aclaimJob cfg queues worker) := by
  apply Seals.bind (.read _)
  intro now
  have anything : (backend cfg).Lasts (sealing cfg) fun _ _ => True :=
    Lasts.local
  apply Seals.session_of fun _ => anything
  apply Yields.bind Seals.chains Seals.lasts_escaping
    registeredWorkerId_seals
  intro owner db state good guarded shut
  refine Ends.bind Seals.chains ?_ good guarded (claimLoop_seals
    (fun _ => claimRound_seals fun _ _ => takeEntry_seals)
    _ _ _ db state good guarded shut)
  intro outcome db state good guarded _ after mild
  cases outcome.1 with
  | ok claimed => trivial
  | error exception => exact fun isWhole => by cases isWhole

theorem amarkRunning_seals {job : JobId} {worker : String} :
    Seals cfg whole (amarkRunning cfg job worker) := by
  apply Seals.bind (.read _)
  intro now
  apply Seals.session
  apply Seals.bind (.read _)
  intro found
  cases found with
  | none => exact .pure _
  | some row =>
      refine .bind deleteReadyWhere_seals fun _ =>
        .bind deleteBlockedStmt_seals fun _ =>
          .bind registeredWorkerId_seals fun _ =>
            opening_seals fun started => ?_
      split
      · exact Seals.commit_of lasts_sealed fun _ _ holds => holds
      · exact Seals.rollback_of lasts_sealed

theorem blockJob_seals {job : Job} : Seals cfg whole (blockJob cfg job) := by
  apply Seals.bind
  · apply Seals.session
    apply Seals.bind (.read _)
    intro now
    dsimp only
    split
    · exact .pure _
    · apply Seals.bind deleteReadyWhere_seals
      intro deleted
      split
      · exact .bind .commit fun _ => .pure _
      · exact .bind insertBlockedStmt_seals fun _ =>
          .bind .commit fun _ => .pure _
  · intro moved
    exact .bind (.whenever recheckBlockedQuietly_seals) fun _ => .pure _

/-! ## Completions and sweeps -/

theorem getJobById_seals {job : JobId} :
    Seals cfg whole (getJobById cfg job) := by
  apply Seals.session
  apply Seals.bind (.read _)
  intro found
  cases found with
  | some row =>
      apply Seals.bind
      · unfold openAttemptIfQueued
        split
        · exact .read _
        · exact .pure _
      · exact fun attempt => .pure _
  | none =>
      apply Seals.bind (.read _)
      intro finished
      cases finished with
      | some row => exact .pure _
      | none =>
          dsimp only
          split
          · exact .read _
          · exact .pure _

theorem findJob_seals {job : JobId} : Seals cfg whole (findJob job) := by
  apply Seals.bind (.read _)
  intro found
  cases found with
  | some row => exact .pure _
  | none => exact .read _

theorem alreadyFinished_seals {row : Job} {version : Option Nat}
    {attempt : Option AttemptHandle} :
    Seals cfg whole (alreadyFinished row version attempt) := by
  unfold alreadyFinished
  split
  · exact .raise _
  · exact .pure _

theorem updateLive_seals {admits : Db → Job → Bool} {set : Job → Job} :
    Seals cfg whole (updateLive cfg admits set) :=
  .bind (seals_dml fun _ => rfl) fun _ => .pure _

theorem recordOutcome_seals {job : JobId} {version : Option Nat}
    {status : Status} {values : Values} :
    Seals cfg false (recordOutcome cfg job version status values) := by
  simp only [recordOutcome]
  split
  · exact .bind updateLive_seals fun _ => .pure _
  · exact finishIn_seals

theorem fencedUpdate_seals {job : JobId} {version : Option Nat}
    {status : Status} {values : Values} {attempt : Option AttemptHandle}
    {outcome : Outcome} {parent : Option JobId} :
    Seals cfg false (fencedUpdate cfg job version status values attempt
      outcome parent) := by
  apply Seals.bind closeAttempt_seals
  intro _
  apply Seals.bind recordOutcome_seals
  intro applied
  cases applied with
  | true =>
      exact .bind .commit fun _ =>
        .bind (.whenever releaseDependentsQuietly_seals) fun _ =>
          findJob_seals
  | false =>
      apply Seals.bind .rollback
      intro _
      cases version with
      | some version => exact .raise _
      | none => exact .pure _

theorem markJob_seals {job : JobId} {version : Option Nat}
    {attempt : Option AttemptHandle} {outcome : Outcome}
    {mark : Job → Time → Job} {values : Job → Values} :
    Seals cfg whole
      (markJob cfg job version attempt outcome mark values) := by
  apply Seals.bind getJobById_seals
  intro found
  cases found with
  | none => exact .pure _
  | some found =>
      cases found with
      | staged row => exact .pure _
      | finished row => exact alreadyFinished_seals
      | live shown =>
          apply Seals.session
          apply Seals.bind (.read _)
          intro live
          cases live with
          | none => exact .pure _
          | some row =>
              exact .bind (.read _) fun running => .bind (.read _) fun now =>
                fencedUpdate_seals

theorem cancelJob_seals {job : JobId} :
    Seals cfg whole (cancelJob cfg job) := by
  apply Seals.session
  apply Seals.bind
  · apply Seals.bind (.read _)
    intro found
    cases found with
    | none => exact .pure _
    | some row =>
        refine .bind deleteReadyWhere_seals fun _ =>
          .bind deleteBlockedStmt_seals fun _ =>
            .bind finishIn_seals fun cancelled => ?_
        cases cancelled
        · exact .bind .rollback fun _ => .pure _
        · exact .bind .commit fun _ =>
            .bind releaseDependentsQuietly_seals fun _ => .pure _
  · intro cancelled
    cases cancelled with
    | true => exact .pure _
    | false =>
        split
        · cases ‹false = true›
        · split
          · apply Seals.bind (.read _)
            intro staged
            cases staged with
            | none => exact .pure _
            | some row =>
                exact .bind (.bind (seals_dml fun _ => rfl) fun _ =>
                  .pure _) fun _ => .bind .commit fun _ => .pure _
          · exact .pure _

theorem expireQueuedJob_seals {job : Job} {error reason : String} :
    Seals cfg whole (expireQueuedJob cfg job error reason) := by
  apply Seals.bind
  · apply Seals.session
    refine .bind (.read _) fun _ => .bind failQueued_seals fun failed => ?_
    cases failed
    · exact .bind .rollback fun _ => .pure _
    · exact .bind .commit fun _ => .pure _
  · intro done
    exact .bind (.whenever releaseDependentsQuietly_seals) fun _ => .pure _

theorem failZombieIn_seals {job : JobId} {reason : String} :
    Seals cfg false (failZombieIn cfg job reason) := by
  apply Seals.bind (.read _)
  intro found
  cases found with
  | none => exact .pure _
  | some row =>
      apply Seals.bind (.read _)
      intro running
      cases running with
      | none => exact .pure _
      | some attempt =>
          apply Seals.bind (.read _)
          intro now
          apply Seals.bind closeWhere_seals
          intro closed
          split
          · exact .bind .rollback fun _ => .pure _
          · refine .bind (.read _) fun _ => .bind finishIn_seals
              fun moved => ?_
            cases moved
            · exact .bind .rollback fun _ => .pure _
            · exact .bind .commit fun _ => .pure _

theorem failZombieJob_seals {job : JobId} {reason : String} :
    Seals cfg whole (failZombieJob cfg job reason) := by
  apply Seals.bind (.session failZombieIn_seals)
  intro failed
  cases failed with
  | none => exact .pure _
  | some parent =>
      exact .bind releaseDependentsQuietly_seals fun _ => .pure _

theorem finishFailed_seals {job : JobId} {status : Status} :
    Seals cfg whole (finishFailed cfg job status) := by
  apply Seals.session
  apply Seals.bind (.read _)
  intro found
  cases found with
  | none => exact .pure _
  | some row => exact .bind finishIn_seals fun _ => .commit

theorem cascadeOne_seals {job : JobId} {createdAt : Time} {status : Status} :
    Seals cfg false (cascadeOne cfg job createdAt status) := by
  unfold cascadeOne
  split
  · exact .bind finishIn_seals fun _ => .pure _
  · exact .bind updateLive_seals fun _ => .pure _

theorem cascadeLoop_seals {status : Status} (fuel : Nat) (seen : List JobId)
    (current : Option JobId) :
    Seals cfg false (cascadeLoop cfg status fuel seen current) := by
  induction fuel generalizing seen current with
  | zero => exact .diverge
  | succ fuel ih =>
      cases current with
      | none => exact .pure _
      | some ancestor =>
          simp only [cascadeLoop]
          split
          · exact .pure _
          · apply Seals.bind (.read _)
            intro found
            cases found with
            | none => exact .pure _
            | some row => exact .bind cascadeOne_seals fun _ => ih _ _

theorem cascadeAncestorStatus_seals {job : JobId} {status : Status} :
    Seals cfg whole (cascadeAncestorStatus cfg job status) :=
  .session (.bind (.read _) fun _ => .bind (cascadeLoop_seals _ _ _)
    fun _ => .commit)

theorem settleRow_seals {stray : Job} {expired : Bool} :
    Seals cfg false (settleRow cfg stray expired) := by
  apply Seals.bind
  · unfold currentStray
    split
    · exact .read _
    · exact .pure _
  · intro current
    cases current with
    | none => exact .raise _
    | some job =>
        apply Seals.bind (.read _)
        intro hasRetry
        split
        · exact .pure _
        · exact .bind finishIn_seals fun _ => .bind .commit fun _ =>
            .bind (.whenever releaseDependentsQuietly_seals) fun _ =>
              .pure _

theorem settleLoop_seals (rows : List Job) (expired : Bool) (moved : Nat)
    (db : Db) (state : Loc) (good : (backend cfg).Fine (sealing cfg) db)
    (guarded : Guarded (schema cfg.dialect) state)
    (shut : Shut cfg db state) :
    (backend cfg).Ends (sealing cfg) (fun _ _ _ => True)
      (settleLoop cfg rows expired moved) db state := by
  induction rows generalizing expired moved db state with
  | nil => exact fun _ _ => trivial
  | cons job rest ih =>
      refine Ends.bind Seals.chains ?_ good guarded
        (settleRow_seals db state good guarded shut)
      intro result db state good guarded holds
      cases result with
      | error exception => exact fun _ _ => trivial
      | ok settled =>
          cases settled with
          | none => exact ih _ _ _ _ good guarded holds
          | some ok => exact ih _ _ _ _ good guarded holds

theorem settleFinishedJobs_seals {limit : Nat} :
    Seals cfg whole (settleFinishedJobs cfg limit) := by
  apply Seals.bind (.read _)
  intro now
  have anything : (backend cfg).Lasts (sealing cfg) fun _ _ => True :=
    Lasts.local
  apply Seals.session_of fun _ => anything
  apply Yields.bind Seals.chains Seals.lasts_escaping (Seals.read _)
  intro rows db state good guarded shut
  refine Ends.bind Seals.chains ?_ good guarded
    (settleLoop_seals _ _ _ db state good guarded shut)
  exact fun _ _ _ _ _ _ _ _ => trivial

theorem releaseJob_seals {job : JobId} :
    Seals cfg whole (releaseJob cfg job) := by
  apply Seals.session
  apply Seals.bind (.read _)
  intro found
  cases found with
  | none => exact .pure _
  | some row =>
      refine .bind (.read _) fun _ => .bind closeWhere_seals
        fun closed => ?_
      split
      · exact .rollback
      · exact .bind writeReady_seals fun _ => .commit

theorem setStatus_seals {job : Job} {status : Status} {values : Values} :
    Seals cfg whole (setStatus cfg job status values) := by
  refine .bind (.whenever dropEntries_seals) fun _ =>
    .bind updateLive_seals fun updated => ?_
  split
  · exact .pure _
  · exact .raise _

theorem releaseRow_seals {job : Job} {status : Status} {values : Values} :
    Seals cfg false (releaseRow cfg job status values) := by
  refine .bind (.read _) fun _ => .bind closeAttempt_seals fun _ =>
    .bind (.read _) fun _ => ?_
  split
  · exact .bind finishIn_seals fun _ => .pure _
  · split
    · exact writeReady_seals
    · exact setStatus_seals

theorem idleWorker_seals {worker : String} {processed : Nat} :
    Seals cfg whole (idleWorker cfg worker processed) := by
  apply Seals.bind (.read _)
  intro known
  cases known with
  | none => exact .pure _
  | some row =>
      exact .bind (.read _) fun _ => .bind (seals_dml fun _ => rfl)
        fun _ => .pure _

theorem releasedJob_seals {found : Option Job} {status : Status} :
    Seals cfg whole (releasedJob found status) := by
  cases found with
  | none => exact .pure _
  | some row =>
      apply Seals.bind
      · apply Seals.whenever
        apply Seals.bind (.read _)
        intro again
        cases again with
        | none => exact .raise _
        | some row => exact .pure _
      · exact fun _ => .bind findJob_seals fun _ => .pure _

theorem releaseClaimedJob_seals {job : Job} {worker : String}
    {status : Status} {processed : Nat} {kwargs : Values} :
    Seals cfg whole
      (releaseClaimedJob cfg job worker status processed kwargs) := by
  apply Seals.bind
  · apply Seals.session
    apply Seals.bind (.read _)
    intro found
    apply Seals.bind
    · cases found with
      | none => exact .pure _
      | some row => exact releaseRow_seals
    · exact fun _ => .bind idleWorker_seals fun _ => .bind .commit fun _ =>
        releasedJob_seals
  · intro outcome
    split
    · exact .bind (.whenever releaseDependentsQuietly_seals) fun _ =>
        .pure _
    · exact .pure _

theorem maintainReadyQueue_seals {queues : List String} {limit : Nat}
    {after : JobId} :
    Seals cfg whole (maintainReadyQueue cfg queues limit after) := by
  apply Seals.bind settleFinishedJobs_seals
  intro settled
  apply Seals.bind
  · apply Seals.session
    refine .bind (.read _) fun lost => .bind (.whenever writeReady_seals)
      fun _ => ?_
    apply Seals.bind
    · unfold staleEntries
      split
      · exact seals_locking fun _ _ _ _ ran => by
          cases ran; exact ⟨rfl, rfl⟩
      · exact .read _
    · intro stale
      apply Seals.bind
      · suffices ∀ dropped, Seals cfg false (dropStale cfg stale dropped) from
          this 0
        induction stale with
        | nil => exact fun dropped => .pure _
        | cons entry rest ih =>
            exact fun dropped => .bind deleteReadyWhere_seals fun _ => ih _
      · exact fun dropped => .bind .commit fun _ =>
          .bind (.read _) fun _ => .pure _
  · intro repaired
    exact .bind (.each fun _ _ => recheckBlockedQuietly_seals) fun _ =>
      .pure _

/-! ## New jobs and retries -/

theorem generateJobId_seals : Seals cfg whole generateJobId := by
  apply Seals.exec
  intro snapshot current others effect ran
  cases ran
  exact ⟨fun write member => (List.not_mem_nil member).elim, fun _ => rfl⟩

theorem insertLive_seals {job : Job} :
    Seals cfg whole (insertLive cfg job) := by
  apply Seals.exec
  intro snapshot current others effect ran
  cases ran
  refine ⟨fun write member => ?_, fun _ => rfl⟩
  rw [List.mem_singleton.mp member]
  rfl

theorem insertStaged_seals {row : Staged} :
    Seals cfg whole (insertStaged cfg row) := by
  apply Seals.exec
  intro snapshot current others effect ran
  cases ran
  refine ⟨fun write member => ?_, fun _ => rfl⟩
  rw [List.mem_singleton.mp member]
  rfl

theorem ensureEntry_seals {job : Job} :
    Seals cfg whole (ensureEntry cfg job) :=
  .bind writeReady_seals fun _ => updateReadyStmt_seals

theorem flushNew_seals {spec : JobSpec} {createdAt : Time} :
    Seals cfg whole (flushNew cfg spec createdAt) :=
  .bind generateJobId_seals fun _ => .bind ensureEntry_seals fun _ =>
    .bind insertLive_seals fun _ => .pure _

theorem refresh_seals {job : Job} : Seals cfg whole (refresh job) := by
  apply Seals.bind (.read _)
  intro found
  cases found with
  | some row => exact .pure _
  | none => exact .raise _

theorem replaceConflicting_seals {spec : JobSpec} :
    Seals cfg whole (replaceConflicting cfg spec) := by
  unfold replaceConflicting
  split
  · exact .pure _
  · split
    · exact .pure _
    · apply Seals.bind
      · apply Seals.session
        refine .bind (.read _) fun _ => .bind (.whenever dropEntries_seals)
          fun _ => .bind (.each fun job _ => ?_) fun _ =>
            .bind .commit fun _ => .pure _
        exact .bind (seals_dml fun _ => rfl) fun _ => .pure _
      · exact fun replaced =>
          .each fun _ _ => releaseDependentsQuietly_seals

theorem createJob_seals {spec : JobSpec} :
    Seals cfg whole (createJob cfg spec) := by
  refine .bind replaceConflicting_seals fun _ => .bind (.read _) fun now =>
    .bind (.read _) fun createdAt => ?_
  split
  · apply Seals.session
    refine .bind generateJobId_seals fun id => .bind insertStaged_seals
      fun _ => .bind .commit fun _ => .bind (.read _) fun stored => ?_
    cases stored with
    | some row => exact .pure _
    | none => exact .raise _
  · exact .session (.bind flushNew_seals fun _ => .bind .commit fun _ =>
      .bind refresh_seals fun _ => .pure _)

theorem setNextRun_seals {admits : ScheduledTask → Bool} {next : Time} :
    Seals cfg whole (setNextRun cfg admits next) :=
  .bind (seals_dml fun _ => rfl) fun _ => .pure _

theorem advanceScheduledTaskIfDue_seals {task : Nat}
    {observed next : Time} {spec : JobSpec} :
    Seals cfg whole
      (advanceScheduledTaskIfDue cfg task observed next spec) := by
  apply Seals.session
  apply Seals.bind
  · unfold winTask
    split
    · apply Seals.bind
      · exact seals_locking fun _ _ _ _ ran => by
          cases ran; exact ⟨rfl, rfl⟩
      · intro locked
        split <;> exact .pure _
    · exact .bind setNextRun_seals fun _ => .pure _
  · intro won
    cases won with
    | false => exact .pure _
    | true =>
        refine .bind (.read _) fun createdAt => .bind generateJobId_seals
          fun id => .bind ensureEntry_seals fun _ => .bind ?_ fun _ =>
            .bind insertLive_seals fun _ => .bind .commit fun _ =>
              .bind refresh_seals fun _ => .pure _
        unfold flushTask
        split
        · exact .bind setNextRun_seals fun _ => .pure _
        · exact .pure _

theorem retryJob_seals {failed : Job} :
    Seals cfg whole (retryJob cfg failed) := by
  have bookkeeping : Seals cfg whole (finishRetryBookkeeping cfg failed) :=
    .bind (.quietly finishFailed_seals) fun _ =>
      .quietly finishFailed_seals
  apply Seals.bind (.session (.observe _ _))
  intro found
  cases found with
  | some existing => exact .bind bookkeeping fun _ => .pure _
  | none =>
      exact .bind (.read _) fun now => .bind createJob_seals fun _ =>
        .bind bookkeeping fun _ => .pure _

theorem jobOf_seals {found : Option Found} :
    Seals cfg whole (jobOf found) := by
  unfold jobOf
  split
  · exact .pure _
  · exact .pure _
  · exact .raise _
  · exact .raise _

theorem failExecution_seals {job : Job} {attempt : AttemptHandle}
    {error traceback : String} {willRetry : Bool} :
    Seals cfg whole
      (failExecution cfg job attempt error traceback willRetry) := by
  apply Seals.quietly
  apply Seals.bind markJob_seals
  intro failed
  cases willRetry with
  | false => exact .pure _
  | true =>
      exact .bind jobOf_seals fun failed => .bind retryJob_seals fun _ =>
        .pure _

theorem recoverLostRetries_seals {grace : Time} {limit : Nat} :
    Seals cfg whole (recoverLostRetries cfg grace limit) := by
  refine .bind (.read _) fun now => .bind (.session (.read _))
    fun pending => .each fun job _ => ?_
  apply Seals.quietly
  split
  · exact .bind (.observe _ _) fun _ => .bind retryJob_seals fun _ =>
      .pure _
  · exact finishFailed_seals

theorem cleanupStaleJobs_seals {queue : Option String} :
    Seals cfg whole (cleanupStaleJobs cfg queue) := by
  refine .bind (.read _) fun _ => .bind (.session (.observe _ _)) fun _ =>
    .each fun pair _ => ?_
  unfold cleanupOne
  split
  · exact .bind markJob_seals fun _ => .pure _
  · split
    · refine .bind markJob_seals fun _ => .bind getJobById_seals
        fun found => .bind jobOf_seals fun again => ?_
      split
      · exact .bind (.observe _ _) fun _ => .bind retryJob_seals fun _ =>
          .pure _
      · exact .pure _
    · exact .pure _

/-! ## All calls -/

theorem scriptOf_seals (call : Call) :
    Seals cfg true (scriptOf cfg call) := by
  cases call with
  | claimJob => exact .map claimJob_seals
  | claimJobById => exact .map claimJobById_seals
  | atomicClaimJob => exact .map atomicClaimJob_seals
  | aclaimJob => exact .map aclaimJob_seals
  | amarkRunning => exact .map amarkRunning_seals
  | blockJob => exact .map blockJob_seals
  | markJobSuccess => exact .map markJob_seals
  | markJobFailed => exact .map markJob_seals
  | cancelJob => exact .map cancelJob_seals
  | expireQueuedJob => exact .map expireQueuedJob_seals
  | failZombieJob => exact .map failZombieJob_seals
  | markJobArchived => exact .map finishFailed_seals
  | settleRetryPending => exact .map finishFailed_seals
  | cascadeAncestorStatus => exact .map cascadeAncestorStatus_seals
  | settleFinishedJobs => exact .map settleFinishedJobs_seals
  | releaseJob => exact .map releaseJob_seals
  | releaseClaimedJob => exact .map releaseClaimedJob_seals
  | maintainReadyQueue => exact .map maintainReadyQueue_seals
  | releaseDependents => exact .map releaseDependents_seals
  | recheckBlocked => exact .map recheckBlocked_seals
  | createJob => exact .map createJob_seals
  | advanceScheduledTaskIfDue => exact .map advanceScheduledTaskIfDue_seals
  | failExecution => exact .map failExecution_seals
  | recoverLostRetries => exact .map recoverLostRetries_seals
  | cleanupStaleJobs => exact .map cleanupStaleJobs_seals

end Statements

end Sqlery.Standalone
