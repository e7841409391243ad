import Sqlery.Standalone.EnqueueSpecs

/-!
# Specifications of the retries and the stale sweep

A call creates a retry only after a look-up that found none, and the record
keeps the two paired.  The sweeps leave a remark on every job they judge or
take up; what they close and create is covered by these remarks.
-/

namespace Sqlery.Standalone

open ReadCommitted
open Setting (stable_and stable_fact)
open Script

section Retries

variable {cfg : Config} {call : Call} {record : Record}

/-! ## The look-up -/

theorem latestRetry_of_plain {writes : List Write}
    (arePlain : ∀ write ∈ writes, plain write = true) (db : Db)
    (job : JobId) :
    (after writes db).latestRetry job = db.latestRetry job := by
  obtain ⟨live, history, attempts⟩ := tables_of_plain arePlain db
  have shown : (after writes db).shown = db.shown := by
    funext row
    simp only [Db.shown, Db.openAttemptOf, newestWhere, attempts]
  simp only [Db.latestRetry, Db.jobAll, live, history, shown]

/-- A look-up that found nothing is one more the call is ahead. -/
def lookedFor (record : Record) (job : JobId) (found : Option Job) : Record :=
  { record with
    ahead := if found.isSome then record.ahead else job :: record.ahead }

theorem Recorded.lookedFor {db : Db} {state : Loc} (job : JobId)
    (found : Option Job) (retries : call.retries = true)
    (holds : Recorded call record db state) :
    Recorded call (lookedFor record job found) db
      (state.note (if found.isSome then [] else [.remark (.noRetry job)])) := by
  have noted := holds.note
    (if found.isSome then [] else [.remark (.noRetry job)])
  cases found with
  | some row => exact noted
  | none =>
      refine { noted with ahead := ?_ }
      intro parent member
      rcases List.mem_cons.mp member with rfl | old
      · have paired := holds.paired retries parent
        have onceMore : lookedUp parent
            (state.note [.remark (.noRetry parent)]).noted =
              lookedUp parent state.noted + 1 := by
          simp [Local.note, lookedUp]
        simp only [reduceCtorEq, Option.isSome_none, if_false, onceMore]
        exact Nat.lt_succ_of_le paired
      · exact noted.ahead parent old

theorem getLatestRetry_spec (job : JobId) (retries : call.retries = true) :
    (backend cfg).Spec call (Between cfg call record) (getLatestRetry job)
      (fun found => Between cfg call (lookedFor record job found))
      (Between cfg call record) := by
  have look : (backend cfg).Spec call (Between cfg call record)
      (observe (fun db => db.latestRetry job) fun found =>
        if found.isSome then [] else [.remark (.noRetry job)] :
        Sql (Option Job))
      (fun found => Recorded call (lookedFor record job found))
      (Recorded call record) := by
    refine .observe at_stable (fun _ => recorded_stable) ?_
    intro db state _ _ here
    refine ⟨⟨?_, ?_, ?_⟩, here.recorded.lookedFor job _ retries⟩
    · intro other member
      have same : ((backend cfg).sys.view db state).latestRetry job =
          db.latestRetry job := latestRetry_of_plain here.only db job
      rw [same] at member
      split at member
      · cases member
      · rename_i isNone
        simp only [List.mem_singleton, Write.remark.injEq,
          Remark.noRetry.injEq] at member
        rw [member]
        simpa using isNone
    · intro other
      split
      · simp [lookedUp]
      · exact List.countP_le_length
    · intro other id member
      split at member <;> simp at member
  exact .session look (fun _ => recorded_stable) recorded_stable
    (fun _ => at_stable) at_stable (fun _ _ _ _ holds => holds.rolledBack)
    fun _ _ _ holds => holds.rolledBack

/-! ## `_retry_job` -/

theorem finishRetryBookkeeping_spec (failed : Job)
    (retries : call.retries = true)
    (judged : Judged call record failed.id) {fails : Db → Loc → Prop}
    (stableFails : (backend cfg).Stable fails) :
    (backend cfg).Spec call (Loose cfg call record)
      (finishRetryBookkeeping cfg failed) (fun _ => Loose cfg call record)
      fails := by
  refine .exists_ fun wrote => .exists_ fun ahead => ?_
  have archived : (backend cfg).Spec call
      (Between cfg call { record with wrote, ahead })
      (quietly (markJobArchived cfg failed.id))
      (fun _ => Between cfg call { record with wrote, ahead }) fails :=
    .quietly (markJobArchived_spec failed.id (Or.inr retries) judged) at_stable
  have settled : (backend cfg).Spec call
      (Between cfg call { record with wrote, ahead })
      (quietly (settleRetryPending cfg failed.id))
      (fun _ => Between cfg call { record with wrote, ahead }) fails :=
    .quietly (settleRetryPending_spec failed.id (Or.inr retries) judged)
      at_stable
  apply Setting.Spec.bind stableFails archived
  intro _
  exact settled.strengthen (fun _ _ _ _ holds => ⟨wrote, ahead, holds⟩)
    fun _ _ _ holds => holds

theorem creates_of_retries (retries : call.retries = true) :
    call.creates = true := by
  cases call <;> first | rfl | cases retries

theorem retryJob_spec (failed : Job) (retries : call.retries = true)
    (judged : Judged call record failed.id)
    (takenUp : call.takesUp = true →
      .remark (.takenUp failed.id) ∈ record.marks) :
    (backend cfg).Spec call (Loose cfg call record) (retryJob cfg failed)
      (fun _ => Loose cfg call record) (Loose cfg call record) := by
  refine .exists_ fun wrote => .exists_ fun ahead => ?_
  have looked : (backend cfg).Spec call
      (Between cfg call { record with wrote, ahead })
      (getLatestRetry failed.id)
      (fun found => Between cfg call
        (lookedFor { record with wrote, ahead } failed.id found))
      (Loose cfg call record) :=
    (getLatestRetry_spec failed.id retries).strengthen
      (fun _ _ _ _ holds => holds)
      fun _ _ _ holds => ⟨wrote, ahead, holds⟩
  apply Setting.Spec.bind loose_stable looked
  intro found
  cases found with
  | some existing =>
      refine .bind loose_stable
        ((finishRetryBookkeeping_spec failed retries judged
        loose_stable).weaken fun _ _ _ holds => ⟨wrote, ahead, holds⟩) ?_
      intro _
      exact .pure loose_stable fun _ _ _ _ holds => holds
  | none =>
      apply Setting.Spec.bind loose_stable (clock_spec at_stable)
      intro now
      have may : MayCreate call
          (lookedFor { record with wrote, ahead } failed.id none)
          (retrySpec cfg failed now) := by
        constructor
        · exact creates_of_retries retries
        · rintro _ parent isParent
          cases isParent
          exact List.mem_cons_self
        · rintro takesUp parent isParent
          cases isParent
          exact takenUp takesUp
        · rintro sweeps parent isParent
          cases isParent
          exact judged sweeps
      apply Setting.Spec.bind loose_stable (createJob_spec _ may)
      intro created
      apply Setting.Spec.bind loose_stable
        (finishRetryBookkeeping_spec failed retries judged loose_stable)
      intro _
      exact .pure loose_stable fun _ _ _ _ holds => holds

/-! ## The calls -/

theorem jobOf_spec (job : JobId) (found : Option Found)
    {known fails : Db → Loc → Prop} (stable : (backend cfg).Stable known)
    (fallen : ∀ db state, known db state → fails db state) :
    (backend cfg).Spec call (Answers known job found) (jobOf found)
      (fun row db state => row.id = job ∧ known db state) fails := by
  have raises : ∀ exception, (backend cfg).Spec call
      (Answers known job found) (raise exception : Sql Job)
      (fun row db state => row.id = job ∧ known db state) fails :=
    fun exception => .raise (answers_stable stable job found)
      fun db state _ holds => fallen db state holds.2
  match found with
  | none => exact raises _
  | some (.staged row) => exact raises _
  | some (.live row) =>
      exact .pure (answers_stable stable job _) fun _ _ _ _ holds =>
        ⟨holds.1 _ rfl, holds.2⟩
  | some (.finished row) =>
      exact .pure (answers_stable stable job _) fun _ _ _ _ holds =>
        ⟨holds.1 _ rfl, holds.2⟩

theorem failExecution_spec (job : Job) (attempt : AttemptHandle)
    (error traceback : String) (willRetry : Bool)
    (isCall : call = .failExecution job attempt error traceback willRetry)
    {fails : Db → Loc → Prop} :
    (backend cfg).Spec call (Between cfg call record)
      (failExecution cfg job attempt error traceback willRetry)
      (fun _ => Loose cfg call record) fails := by
  have quiet : call.sweeps = false := by rw [isCall]; rfl
  have calm : call.takesUp = false := by rw [isCall]; rfl
  have retries : call.retries = true := by rw [isCall]; rfl
  refine .quietly ?_ loose_stable
  have may : MayEnd call record job.id (some attempt) := by
    constructor
    · intro handle _
      rw [isCall]
      rfl
    · intro isNone
      cases isNone
  have failure := Failure.executed job attempt error traceback willRetry isCall
    rfl
  apply Setting.Spec.bind loose_stable ((markJobFailed_spec may
    failure).strengthen (fun _ _ _ _ holds => holds)
      fun _ _ _ holds => At.loose holds)
  intro failed
  split
  · apply Setting.Spec.bind loose_stable
      (jobOf_spec job.id failed at_stable fun _ _ holds => At.loose holds)
    intro again
    refine .fact fun _ => ?_
    have noMark : call.takesUp = true →
        .remark (.takenUp again.id) ∈ record.marks := by
      intro takesUp
      rw [calm] at takesUp
      cases takesUp
    apply Setting.Spec.bind loose_stable ((retryJob_spec again retries
      (judged_of_quiet quiet _) noMark).weaken
        fun _ _ _ holds => At.loose holds)
    intro _
    exact .pure loose_stable fun _ _ _ _ holds => holds
  · exact .pure (answers_stable at_stable _ _) fun _ _ _ _ holds =>
      At.loose holds.2

/-- Fewer remarks are known. -/
theorem Loose.forget {marks : List Write} {db : Db} {state : Loc}
    (holds : Loose cfg call { record with marks } db state)
    (known : ∀ mark ∈ record.marks, mark ∈ marks) :
    Loose cfg call record db state := by
  obtain ⟨wrote, ahead, here⟩ := holds
  refine ⟨wrote, ahead, { here with recorded := ?_ }⟩
  exact
    { here.recorded with
      marked := fun mark member =>
        here.recorded.marked mark (known mark member) }

/-- A retry of a job that a sweep takes up. -/
theorem takeUp_spec (job : Job) (retries : call.retries = true)
    (judged : Judged call record job.id) :
    (backend cfg).Spec call (Between cfg call record)
      (do takeUp job.id; let _ ← retryJob cfg job; pure ())
      (fun _ => Loose cfg call record) (Loose cfg call record) := by
  have marks : (backend cfg).Spec call (Between cfg call record)
      (takeUp job.id)
      (fun _ => Loose cfg call { record with
        marks := record.marks ++ [.remark (.takenUp job.id)] })
      (Loose cfg call record) := by
    refine (observe_spec ?_).strengthen
      (fun _ _ _ _ holds => At.loose holds) fun _ _ _ holds => holds
    intro _ _ _
    constructor
    · intro other member
      cases List.mem_singleton.mp member
    · intro other
      exact List.countP_le_length
    · intro other id member
      cases List.mem_singleton.mp member
  have judgedStill : Judged call
      { record with marks := record.marks ++ [.remark (.takenUp job.id)] }
      job.id := by
    intro sweeps
    obtain ⟨found, member⟩ := judged sweeps
    exact ⟨found, List.mem_append_left _ member⟩
  have forgets : ∀ db state, Loose cfg call { record with
      marks := record.marks ++ [.remark (.takenUp job.id)] } db state →
      Loose cfg call record db state :=
    fun _ _ holds => holds.forget fun _ member =>
      List.mem_append_left _ member
  apply Setting.Spec.bind loose_stable marks
  intro _
  apply Setting.Spec.bind loose_stable
    ((retryJob_spec job retries judgedStill fun _ => by simp).strengthen
      (fun _ _ _ _ holds => holds) fun db state _ holds =>
        forgets db state holds)
  intro _
  exact .pure loose_stable fun db state _ _ holds => forgets db state holds

theorem recoverOne_spec (job : Job) (retries : call.retries = true)
    (quiet : call.sweeps = false) {fails : Db → Loc → Prop} :
    (backend cfg).Spec call (Loose cfg call record) (recoverOne cfg job)
      (fun _ => Loose cfg call record) fails := by
  refine .exists_ fun wrote => .exists_ fun ahead => ?_
  refine .quietly ?_ loose_stable
  split
  · exact takeUp_spec job retries (judged_of_quiet quiet _)
  · exact (settleRetryPending_spec job.id (Or.inr retries)
      (judged_of_quiet quiet _)).strengthen
      (fun _ _ _ _ holds => ⟨wrote, ahead, holds⟩)
      fun _ _ _ holds => ⟨wrote, ahead, holds⟩

theorem recoverLostRetries_spec (grace : Time) (limit : Nat)
    (retries : call.retries = true) (quiet : call.sweeps = false) :
    (backend cfg).Spec call (Between cfg call record)
      (recoverLostRetries cfg grace limit) (fun _ => Loose cfg call record)
      (Loose cfg call record) := by
  apply Setting.Spec.bind loose_stable (clock_spec at_stable)
  intro now
  have listed : (backend cfg).Spec call (Between cfg call record)
      (session (read (jobsPendingRetry cfg (now - grace) limit)))
      (fun _ => Loose cfg call record) (Loose cfg call record) :=
    ((Trans.session (Inner.read _).trans) record).strengthen
      (fun _ _ _ _ holds => At.loose holds)
      fun _ _ _ holds => At.loose holds
  apply Setting.Spec.bind loose_stable listed
  intro pending
  apply Setting.Spec.each loose_stable loose_stable
  intro job _
  exact recoverOne_spec job retries quiet

theorem cleanupOne_spec (now : Time) (job : Job)
    (retries : call.retries = true) (sweeps : call.sweeps = true)
    (judged : overdue now job = true → Judged call record job.id) :
    (backend cfg).Spec call (Loose cfg call record) (cleanupOne cfg now job)
      (fun _ => Loose cfg call record) (Loose cfg call record) := by
  refine .exists_ fun wrote => .exists_ fun ahead => ?_
  have may : overdue now job = true →
      MayEnd call { record with wrote, ahead } job.id none := by
    intro late
    constructor
    · intro handle isSome
      cases isSome
    · intro _
      exact judged late
  have fails : ∀ error traceback reason, overdue now job = true →
      Failure call job.id error traceback reason → (backend cfg).Spec call
      (Between cfg call { record with wrote, ahead })
      (markJobFailed cfg job.id error traceback none reason none)
      (Answers (Between cfg call { record with wrote, ahead }) job.id)
      (Loose cfg call record) :=
    fun _ _ _ late failure => (markJobFailed_spec (may late)
      failure).strengthen (fun _ _ _ _ holds => holds)
      fun _ _ _ holds => ⟨wrote, ahead, holds⟩
  unfold cleanupOne
  cases started : job.startedAt with
  | none =>
      have late : overdue now job = true := by
        rw [overdue, started]
      apply Setting.Spec.bind loose_stable (fails _ _ _ late
        (.unstarted sweeps))
      intro failed
      exact .pure (answers_stable at_stable _ _) fun _ _ _ _ holds =>
        ⟨wrote, ahead, holds.2⟩
  | some startedAt =>
      dsimp only
      split
      · rename_i old
        have late : overdue now job = true := by
          rw [overdue, started]
          exact decide_eq_true old
        apply Setting.Spec.bind loose_stable (fails _ _ _ late
          (.stale _ _ (shouldRetry cfg job) sweeps))
        intro failed
        refine .fact fun _ => ?_
        apply Setting.Spec.bind loose_stable ((getJobById_spec
          job.id).strengthen (fun _ _ _ _ holds => holds)
          fun _ _ _ holds => ⟨wrote, ahead, holds⟩)
        intro found
        apply Setting.Spec.bind loose_stable (jobOf_spec job.id found
          at_stable fun _ _ holds => ⟨wrote, ahead, holds⟩)
        intro again
        refine .fact fun isJob => ?_
        have judgedAgain : Judged call { record with wrote, ahead }
            again.id := by
          rw [isJob]
          exact judged late
        split
        · exact takeUp_spec again retries judgedAgain
        · exact .pure at_stable fun _ _ _ _ holds => ⟨wrote, ahead, holds⟩
      · exact .pure at_stable fun _ _ _ _ holds => ⟨wrote, ahead, holds⟩

theorem runningJobs_open {queue : Option String} {db : Db}
    {pair : Job × Attempt} (found : pair ∈ runningJobs queue db) :
    db.attempts.get pair.2.id = some pair.2 ∧
      pair.2.runs pair.1.id = true := by
  obtain ⟨attempt, member, isPair⟩ := List.mem_filterMap.mp found
  have listed : attempt ∈ db.attempts.rows.filter Attempt.isOpen :=
    (List.perm_insertionSort _ _).mem_iff.mp member
  obtain ⟨isRow, isOpen⟩ := List.mem_filter.mp listed
  split at isPair
  · cases isPair
  · rename_i job isLive
    split at isPair
    · cases isPair
      have keyed : job.id = attempt.jobId := Table.key_of_get isLive
      refine ⟨Table.get_of_mem isRow, runs_iff.mpr ⟨?_, isOpen⟩⟩
      rw [overlayRunning_id, keyed]
    · cases isPair

theorem sweep_spec (queue : Option String) (now : Time) :
    (backend cfg).Spec call (Between cfg call record)
      (session (observe (runningJobs queue) (judgements now)) :
        Sql (List (Job × Attempt)))
      (fun running => Between cfg call
        { record with marks := record.marks ++ judgements now running })
      (Between cfg call record) := by
  have look : (backend cfg).Spec call (Between cfg call record)
      (observe (runningJobs queue) (judgements now) :
        Sql (List (Job × Attempt)))
      (fun running => Between cfg call
        { record with marks := record.marks ++ judgements now running })
      (Between cfg call record) := by
    apply observe_spec
    intro db state here
    constructor
    · intro job member
      obtain ⟨pair, _, isMark⟩ := List.mem_map.mp member
      cases isMark
    · intro job
      have none : lookedUp job (judgements now
          (runningJobs queue (after state.pending db))) = 0 := by
        rw [lookedUp, List.countP_eq_zero]
        intro write member
        obtain ⟨pair, _, rfl⟩ := List.mem_map.mp member
        simp
      omega
    · intro job id member
      obtain ⟨pair, isFound, isMark⟩ := List.mem_map.mp member
      cases isMark
      obtain ⟨_, _, attempts⟩ := tables_of_plain here.only db
      rw [← attempts]
      exact ⟨pair.2, runningJobs_open (List.mem_filter.mp isFound).1⟩
  exact .session look (fun _ => at_stable) at_stable (fun _ => at_stable)
    at_stable (fun _ _ _ _ holds => holds.recorded.rolledBack)
    fun _ _ _ holds => holds.recorded.rolledBack

theorem cleanupStaleJobs_spec (queue : Option String)
    (retries : call.retries = true) (sweeps : call.sweeps = true) :
    (backend cfg).Spec call (Between cfg call record)
      (cleanupStaleJobs cfg queue) (fun _ => Loose cfg call record)
      (Loose cfg call record) := by
  apply Setting.Spec.bind loose_stable (clock_spec at_stable)
  intro now
  apply Setting.Spec.bind loose_stable ((sweep_spec queue now).strengthen
    (fun _ _ _ _ holds => At.loose holds) fun _ _ _ holds => At.loose holds)
  intro running
  have forgets : ∀ db state, Loose cfg call { record with
      marks := record.marks ++ judgements now running } db state →
      Loose cfg call record db state :=
    fun _ _ holds => holds.forget fun _ member =>
      List.mem_append_left _ member
  have loop : (backend cfg).Spec call
      (Loose cfg call { record with
        marks := record.marks ++ judgements now running })
      (each (fun pair => cleanupOne cfg now pair.1) running)
      (fun _ => Loose cfg call { record with
        marks := record.marks ++ judgements now running })
      (Loose cfg call { record with
        marks := record.marks ++ judgements now running }) := by
    apply Setting.Spec.each loose_stable loose_stable
    intro pair member
    apply cleanupOne_spec now pair.1 retries sweeps
    intro late _
    have kept : pair ∈ running.filter fun pair => overdue now pair.1 :=
      List.mem_filter.mpr ⟨member, late⟩
    exact ⟨pair.2.id, List.mem_append_right _
      (List.mem_map.mpr ⟨pair, kept, rfl⟩)⟩
  exact loop.strengthen (fun _ db state _ holds => forgets db state holds)
    fun db state _ holds => forgets db state holds

end Retries

end Sqlery.Standalone
