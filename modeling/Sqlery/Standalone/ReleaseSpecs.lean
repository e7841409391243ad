import Sqlery.Standalone.CompletionSpecs

/-!
# Specifications of the sweeps and releases

The transitions that end a job without its worker, and the releases that put
it back.
-/

namespace Sqlery.Standalone

open ReadCommitted
open Setting (stable_and stable_fact stable_when)
open Script

/-! ## Cancel, expire and zombies -/

section Sweeps

variable {cfg : Config} {call : Call} {record : Record}

theorem Trans.cancelLive (jobId : JobId)
    (isCall : call = .cancelJob jobId) :
    Trans cfg call (cancelLive cfg jobId) := by
  refine Trans.bind (Inner.read _).trans fun found => ?_
  cases found with
  | none => exact Trans.pure false
  | some job =>
      refine Trans.bind (Inner.deleteReadyStmt _).trans fun _ => ?_
      refine Trans.bind (Inner.deleteBlockedStmt _).trans fun _ => ?_
      intro record
      refine inside (finishIn_spec (movable_idle rfl rfl (by simp) fun _ =>
        .cancelled isCall)) fun cancelled => ?_
      cases cancelled with
      | true =>
          refine inside commit_settled fun _ => ?_
          refine inside ((Outer.releaseDependentsQuietly _ _).trans record)
            fun _ => ?_
          exact Trans.pure true record
      | false =>
          exact inside (Trans.rollback record) fun _ =>
            Trans.pure false record

theorem Inner.deleteStaged (jobId : JobId) :
    Inner cfg call (deleteStaged cfg jobId) :=
  Inner.bind (Inner.exec (makes_dml Db.staged _ fun _ => rfl)) fun _ =>
    Inner.pure ()

theorem Outer.cancelJob (jobId : JobId) (isCall : call = .cancelJob jobId) :
    Outer cfg call (cancelJob cfg jobId) := by
  refine Trans.session (Trans.bind (Trans.cancelLive jobId isCall)
    fun cancelled => ?_)
  cases cancelled with
  | true => exact Trans.pure true
  | false =>
      simp only [Bool.false_eq_true, if_false]
      split
      · refine Trans.bind (Inner.read _).trans fun staged => ?_
        cases staged with
        | none => exact Trans.pure false
        | some row =>
            refine Trans.bind (Inner.deleteStaged jobId).trans fun _ => ?_
            exact Trans.bind Trans.commit fun _ => Trans.pure true
      · exact Trans.pure false

theorem Outer.expireQueuedJob (job : Job) (error reason : String)
    (refusal : Refusal call job.id error reason) :
    Outer cfg call (expireQueuedJob cfg job error reason) := by
  refine Outer.bind (Trans.session ?_) fun done => ?_
  · refine Trans.bind Inner.currentTime.trans fun now => ?_
    intro record
    refine inside (failQueued_spec _ _ _ _ refusal) fun failed => ?_
    cases failed with
    | true => exact inside commit_settled fun _ => Trans.pure true record
    | false =>
        exact inside (Trans.rollback record) fun _ => Trans.pure false record
  · refine Outer.bind (Outer.whenever (Outer.releaseDependentsQuietly _ _))
      fun _ => ?_
    exact Outer.pure done

theorem failZombieIn_spec (jobId : JobId) (reason : String)
    (isCall : call = .failZombieJob jobId reason)
    (judged : Judged call record jobId) :
    (backend cfg).Spec call (Between cfg call record)
      (failZombieIn cfg jobId reason) (fun _ => Between cfg call record)
      (Recorded call record) := by
  unfold failZombieIn
  refine inside (readLive_spec jobId _ _ fun _ _ isRow => isRow)
    fun found => .fact fun isRow => ?_
  cases found with
  | none => exact forgetting (Trans.pure none _)
  | some job =>
      refine inside (openAttempts_spec jobId) fun running =>
        .fact fun isAttempt => ?_
      cases running with
      | none => exact forgetting (forgetting (Trans.pure none _))
      | some attempt =>
          apply forgetting
          apply forgetting
          let read := (record.reading [job] []).reading [] [attempt]
          have finishes : ∀ later db state, Recorded call read db state →
              Finishes call db jobId .failed (failureValues (markFailed
                (overlayRunning job (some attempt)) reason "" "zombie_job"
                  later)) := by
            intro later db state holds
            refine .zombie reason job attempt later isCall
              (holds.glimpse (isRow job rfl).1 isAttempt ?_ ?_)
            · simp [read, Record.reading]
            · intro found isFound
              cases isFound
              simp [read, Record.reading]
          refine inside (clock_spec at_stable) fun now => ?_
          refine inside (closeUnfenced_spec jobId .abandoned now judged)
            fun closed => .exists_ fun stage => .exists_ fun sure =>
              .fact fun isEnded => ?_
          obtain ⟨owes, _⟩ := isEnded
          have given : (backend cfg).Spec call
              (At cfg call read { kind := ending, stage, sure })
              (do
                rollback
                pure none : Sql (Option (Option JobId)))
              (fun _ => Between cfg call read) (Recorded call read) :=
            inside (rollback_spec at_stable fun _ _ holds => holds.recorded)
              fun _ => Trans.pure none read
          split
          · exact given
          · refine inside (clock_spec at_stable) fun later => ?_
            have notSuccess : MaySucceed call jobId .failed none := by
              intro isSuccess
              cases isSuccess
            apply inside (finishIn_spec (movable_ended none rfl owes.stage
              (by simp) rfl (finishes later) notSuccess judged))
            intro moved
            cases moved with
            | true => exact inside commit_settled fun _ => Trans.pure _ read
            | false => exact given

theorem Outer.failZombieJob (jobId : JobId) (reason : String)
    (isCall : call = .failZombieJob jobId reason)
    (quiet : call.sweeps = false) :
    Outer cfg call (failZombieJob cfg jobId reason) := by
  have judged : ∀ record, Judged call record jobId := by
    intro record sweeps
    rw [quiet] at sweeps
    cases sweeps
  refine Outer.bind (Trans.session fun record =>
    failZombieIn_spec jobId reason isCall (judged record)) fun failed => ?_
  cases failed with
  | none => exact Outer.pure false
  | some parent =>
      refine Outer.bind (Outer.releaseDependentsQuietly _ _) fun _ => ?_
      exact Outer.pure true

/-! ## Rows that stay behind -/

/-- A move out of a clean transaction. -/
theorem movable_settled {fence : MoveFence} {status : Status}
    {values : Values} (terminal : isTerminal status = true)
    (finishes : ∀ db state, Recorded call record db state →
      Finishes call db fence.jobId status values)
    (succeeds : status = .success → fence.requireStatus = some [.success] ∨
      call.succeedsUnfenced = true)
    (judged : Judged call record fence.jobId) :
    Movable call record fence status values settledTxn where
  fits := fun _ isKind => isKind
  stage := Or.inl rfl
  made := rfl
  terminal := terminal
  finishes := finishes
  succeeds := fun isSuccess => (succeeds isSuccess).imp id Or.inl
  closes := Or.inl judged

/-- The move leaves the transaction settled, whether it found the row or
not. -/
theorem finishSettled_spec {fence : MoveFence} {status : Status}
    {values : Values} (terminal : isTerminal status = true)
    (finishes : ∀ db state, Recorded call record db state →
      Finishes call db fence.jobId status values)
    (succeeds : status = .success → fence.requireStatus = some [.success] ∨
      call.succeedsUnfenced = true)
    (judged : Judged call record fence.jobId) :
    (backend cfg).Spec call (At cfg call record settledTxn)
      (finishIn cfg fence status values)
      (fun _ => At cfg call record settledTxn) (Recorded call record) := by
  refine (finishIn_spec (movable_settled terminal finishes succeeds
    judged)).strengthen ?_ fun _ _ _ holds => holds
  intro moved db state _ holds
  cases moved with
  | true => exact holds
  | false => exact holds

theorem finishFailed_spec (jobId : JobId) {status : Status}
    (terminal : isTerminal status = true) (notSuccess : status ≠ .success)
    (settles : ∀ row : Job, row.id = jobId → row.status = .failed →
      Settlement call row status)
    (judged : Judged call record jobId) :
    (backend cfg).Spec call (Between cfg call record)
      (finishFailed cfg jobId status) (fun _ => Between cfg call record)
      (Between cfg call record) := by
  refine session_spec (inside (readLive_spec jobId _ _
    fun _ _ isRow => isRow) fun found => .fact fun isRow => ?_)
  cases found with
  | none => exact .pure at_stable fun _ _ _ _ holds => holds.recorded.forget
  | some job =>
      obtain ⟨isJob, isFailed⟩ := isRow job rfl
      have finishes : ∀ db state,
          Recorded call (record.reading [job] []) db state →
          Finishes call db jobId status
            { terminationReason :=
                some (settledTerminationReason job.terminationReason) } := by
        intro db state holds
        refine .settled job status (settles job isJob (by simpa using
          isFailed)) (holds.glimpse isJob (by simp) ?_ (by simp))
        simp [Record.reading]
      refine .weaken ?_ fun _ _ _ holds => At.settled holds
      refine (inside (finishSettled_spec terminal finishes
        (fun isSuccess => (notSuccess isSuccess).elim) judged) fun _ =>
          commit_settled).strengthen ?_ fun _ _ _ holds => holds.forget
      exact fun _ _ _ _ holds => holds.recorded.forget

theorem markJobArchived_spec (jobId : JobId)
    (may : call = .markJobArchived jobId ∨ call.retries = true)
    (judged : Judged call record jobId) :
    (backend cfg).Spec call (Between cfg call record)
      (markJobArchived cfg jobId) (fun _ => Between cfg call record)
      (Between cfg call record) :=
  finishFailed_spec jobId rfl (by simp)
    (fun _ isJob isFailed => .archives (isJob ▸ may) isFailed) judged

theorem settleRetryPending_spec (jobId : JobId)
    (may : call = .settleRetryPending jobId ∨ call.retries = true)
    (judged : Judged call record jobId) :
    (backend cfg).Spec call (Between cfg call record)
      (settleRetryPending cfg jobId) (fun _ => Between cfg call record)
      (Between cfg call record) :=
  finishFailed_spec jobId rfl (by simp)
    (fun _ isJob isFailed => .settles (isJob ▸ may) isFailed) judged

theorem judged_of_quiet (quiet : call.sweeps = false) (job : JobId) :
    Judged call record job := by
  intro sweeps
  rw [quiet] at sweeps
  cases sweeps

theorem cascadeOne_terminal (jobId : JobId) (createdAt : Time)
    {status : Status} {child : JobId}
    (isCall : call = .cascadeAncestorStatus child status)
    (terminal : isTerminal status = true)
    (succeeds : status = .success → call.succeedsUnfenced = true)
    (quiet : call.sweeps = false) :
    (backend cfg).Spec call (At cfg call record settledTxn)
      (cascadeOne cfg jobId createdAt status)
      (fun _ => At cfg call record settledTxn) (Recorded call record) := by
  unfold cascadeOne
  rw [if_pos terminal]
  apply inside (finishSettled_spec terminal
    (fun _ _ _ => .cascaded child status isCall)
    (fun isSuccess => Or.inr (succeeds isSuccess)) (judged_of_quiet quiet _))
  intro moved
  exact .pure at_stable fun _ _ _ _ holds => holds

theorem cascadeOne_update (jobId : JobId) (createdAt : Time)
    {status : Status} (terminal : isTerminal status = false)
    (requeues : status = .queued → call.requeues = true)
    (quiet : call.sweeps = false) :
    (backend cfg).Spec call (At cfg call record updatedTxn)
      (cascadeOne cfg jobId createdAt status)
      (fun _ => At cfg call record updatedTxn) (Recorded call record) := by
  have notSuccess : status ≠ .success := by
    rintro rfl
    cases terminal
  unfold cascadeOne
  rw [if_neg (by simp [terminal])]
  refine inside (updateLive_spec jobId recorded_stable
    (fun _ isKind => isKind) rfl ?_ (fun row => ⟨rfl, rfl, rfl⟩)
    (fun _ row _ => ⟨notSuccess, requeues⟩) (Or.inl rfl)
    (judged_of_quiet quiet _)) fun count => ?_
  · intro db row isAdmitted
    simp only [Bool.and_eq_true, decide_eq_true_eq] at isAdmitted
    exact isAdmitted.1.1
  · refine .pure (updated_stable count) fun db state _ _ holds => ?_
    by_cases none : count = 0
    · exact holds.1 none
    · exact holds.2 none

theorem cascadeLoop_spec {txn : Txn} {status : Status}
    (round : ∀ jobId createdAt,
      (backend cfg).Spec call (At cfg call record txn)
        (cascadeOne cfg jobId createdAt status)
        (fun _ => At cfg call record txn) (Recorded call record))
    (fuel : Nat) (seen : List JobId) (current : Option JobId) :
    (backend cfg).Spec call (At cfg call record txn)
      (cascadeLoop cfg status fuel seen current)
      (fun _ => At cfg call record txn) (Recorded call record) := by
  induction fuel generalizing seen current with
  | zero => exact .diverge
  | succ fuel ih =>
      have stops : (backend cfg).Spec call (At cfg call record txn)
          (pure () : Sql Unit) (fun _ => At cfg call record txn)
          (Recorded call record) :=
        .pure at_stable fun _ _ _ _ holds => holds
      unfold cascadeLoop
      cases current with
      | none => exact stops
      | some jobId =>
          dsimp only
          split
          · exact stops
          · apply inside read_spec
            intro found
            cases found with
            | none => exact stops
            | some row =>
                apply inside (round jobId row.createdAt)
                intro _
                exact ih _ _

theorem cascadeAncestorStatus_spec (jobId : JobId) (status : Status)
    (isCall : call = .cascadeAncestorStatus jobId status) :
    (backend cfg).Spec call (Between cfg call record)
      (cascadeAncestorStatus cfg jobId status)
      (fun _ => Between cfg call record) (Between cfg call record) := by
  have quiet : call.sweeps = false := by
    rw [isCall]
    rfl
  apply session_spec
  apply inside ((Inner.read _).trans record)
  intro parent
  by_cases terminal : isTerminal status = true
  · have succeeds : status = .success → call.succeedsUnfenced = true := by
      rw [isCall]
      intro isSuccess
      simp [Call.succeedsUnfenced, isSuccess]
    refine .weaken (inside (cascadeLoop_spec (fun job createdAt =>
      cascadeOne_terminal job createdAt isCall terminal succeeds quiet) _ _ _)
      fun _ => ?_) fun _ _ _ holds => At.settled holds
    exact commit_settled.strengthen (fun _ _ _ _ holds => holds.recorded)
      fun _ _ _ holds => holds
  · have requeues : status = .queued → call.requeues = true := by
      rw [isCall]
      intro isQueued
      simp [Call.requeues, isQueued]
    rw [Bool.not_eq_true] at terminal
    refine .weaken (inside (cascadeLoop_spec (fun job createdAt =>
      cascadeOne_update job createdAt terminal requeues quiet) _ _ _)
      fun _ => ?_) fun _ _ _ holds => holds.mono
        (fun _ => updating_of_plain) rfl rfl (fun _ member => member)
        fun _ member => member
    exact (commit_spec rfl rfl).strengthen
      (fun _ _ _ _ holds => holds.recorded) fun _ _ _ holds => holds

/-! ## The settle sweep -/

/-- Only a row that is a success already is settled as one. -/
theorem settleStatus_success {status : Status} {reason : String}
    {hasRetry : Bool}
    (settles : settleStatus status reason hasRetry = some .success) :
    status = .success := by
  unfold settleStatus at settles
  split at settles
  · cases settles
    rfl
  · split at settles
    · cases settles
    · split at settles
      · cases settles
      · split at settles <;> cases settles

/-- The stray is the row the sweep has listed, or a later version of it. -/
theorem currentStray_spec (stray : Job) (expired : Bool)
    (listed : stray ∈ record.rows) {fails : Db → Loc → Prop} :
    (backend cfg).Spec call (Between cfg call record)
      (currentStray stray expired)
      (fun found => Between cfg call (record.reading found.toList []))
      fails := by
  unfold currentStray
  split
  · exact (readLive_spec stray.id _ _ fun _ _ isRow => isRow).strengthen
      (fun _ _ _ _ holds => holds.2) fun _ _ _ holds => holds
  · refine .pure at_stable fun db state _ _ holds => ?_
    refine { holds with recorded := holds.recorded.reading ?_ (by simp) }
    intro row member
    cases List.mem_singleton.mp member
    exact holds.recorded.rows stray listed

theorem settleRow_spec (stray : Job) (expired : Bool)
    (listed : stray ∈ record.rows) (quiet : call.sweeps = false)
    (tidies : call.tidies = true) :
    (backend cfg).Spec call (Between cfg call record)
      (settleRow cfg stray expired) (fun _ => Between cfg call record)
      (Recorded call record) := by
  refine inside (currentStray_spec stray expired listed) fun current => ?_
  apply forgetting
  cases current with
  | none => exact raise_spec
  | some job =>
      apply inside ((Inner.read _).trans _)
      intro hasRetry
      cases settles : settleStatus job.status job.terminationReason hasRetry
        with
      | none => exact Trans.pure none _
      | some status =>
          have succeeds : status = .success →
              some [job.status] = some [Status.success] ∨
                call.succeedsUnfenced = true := by
            intro isSuccess
            rw [isSuccess] at settles
            rw [settleStatus_success settles]
            exact Or.inl rfl
          have finishes : ∀ db state,
              Recorded call (record.reading [job] []) db state →
              Finishes call db job.id status
                { terminationReason := some
                    (settledTerminationReason job.terminationReason) } := by
            intro db state holds
            refine .settled job status (.sweeps hasRetry status tidies settles)
              (holds.glimpse rfl (by simp) ?_ (by simp))
            simp [Record.reading]
          refine .weaken (inside (finishSettled_spec
            (isTerminal_of_settleStatus settles) finishes succeeds
            (judged_of_quiet quiet _)) fun ok => ?_)
            fun _ _ _ holds => At.settled holds
          apply inside commit_settled
          intro _
          apply inside ((Outer.whenever
            (Outer.releaseDependentsQuietly _ _)).trans _)
          intro _
          exact Trans.pure _ _

theorem settleLoop_spec (quiet : call.sweeps = false)
    (tidies : call.tidies = true) (rows : List Job) (expired : Bool)
    (moved : Nat) (listed : ∀ row ∈ rows, row ∈ record.rows) :
    (backend cfg).Triple call (Between cfg call record)
      (settleLoop cfg rows expired moved)
      (fun _ => Recorded call record) := by
  induction rows generalizing expired moved with
  | nil => exact .done at_stable fun _ _ _ _ holds => holds.recorded
  | cons job rest ih =>
      have later : ∀ row ∈ rest, row ∈ record.rows :=
        fun row member => listed row (List.mem_cons_of_mem _ member)
      apply Setting.Triple.bind (settleRow_spec job expired
        (listed job List.mem_cons_self) quiet tidies)
      intro result
      cases result with
      | error exception =>
          exact .done recorded_stable fun _ _ _ _ holds => holds
      | ok ended =>
          cases ended with
          | none => exact ih _ _ later
          | some ok => exact ih _ _ later

theorem strays_live {limit : Nat} {cutoff : Time} {db : Db} {row : Job}
    (member : row ∈ strays cfg limit cutoff db) : row ∈ db.live.rows := by
  have sorted := List.mem_of_mem_take member
  rw [List.mem_insertionSort] at sorted
  exact (List.mem_filter.mp sorted).1

theorem strays_spec (limit : Nat) (cutoff : Time) {fails : Db → Loc → Prop} :
    (backend cfg).Spec call (Between cfg call record)
      (read (strays cfg limit cutoff) : Sql (List Job))
      (fun rows => Between cfg call (record.reading rows [])) fails := by
  have nothing : ∀ db : Db, ∀ attempt ∈ ([] : List Attempt),
      attempt ∈ db.attempts.rows := fun _ _ member => by cases member
  have listed : (backend cfg).Spec call (Between cfg call record)
      (read (strays cfg limit cutoff) : Sql (List Job))
      (fun rows db state => True ∧
        Between cfg call (record.reading rows []) db state) fails :=
    reads_spec id (fun _ => []) (fun _ _ => strays_live) nothing
      fun _ => trivial
  exact listed.strengthen (fun _ _ _ _ holds => holds.2)
    fun _ _ _ holds => holds

theorem Outer.settleFinishedJobs (limit : Nat)
    (quiet : call.sweeps = false) (tidies : call.tidies = true) :
    Outer cfg call (settleFinishedJobs cfg limit) := by
  apply Outer.bind (Outer.read _)
  intro now record
  apply session_spec
  refine inside (strays_spec limit _) fun rows => ?_
  apply Setting.Spec.bind_ (settleLoop_spec quiet tidies rows false 0
    fun _ member => List.mem_append_left _ member)
  intro moved
  exact .done recorded_stable fun _ _ _ _ holds => holds.forget

end Sweeps

/-! ## A row once seen -/

section Seen

variable {cfg : Config} {dialect : Dialect} {call : Call} {stage : Stage}
variable {db : Db} {state : Loc} {job : JobId}

/-- The job was live once and is not any more. -/
def Gone (job : JobId) (db : Db) : Prop :=
  db.live.get job = none ∧
    ((∃ row ∈ db.history.rows, row.id = job) ∨ job ∈ db.replaced)

/-- The job is live under this creation time, or it is gone. -/
def Seen (job : JobId) (createdAt : Time) (db : Db) : Prop :=
  (∃ row, db.live.get job = some row ∧ row.createdAt = createdAt) ∨
    Gone job db

theorem Gone.kept (gone : Gone job db)
    (lawful : Lawful dialect call stage db state) :
    Gone job (after state.pending db) := by
  obtain ⟨absent, trace⟩ := gone
  constructor
  · apply live_after_none absent
    rintro new inserted rfl
    obtain ⟨unused, _⟩ := lawful.inserted new inserted
    rcases trace with ⟨row, member, isJob⟩ | isReplaced
    · exact unused.history row member isJob
    · exact unused.replaced isReplaced
  · rcases trace with ⟨row, member, isJob⟩ | isReplaced
    · exact Or.inl ⟨row, history_after_kept member, isJob⟩
    · exact Or.inr (replaced_after_mem.mpr (Or.inl isReplaced))

/-- A row that a lawful transaction removes is gone, into history or for a
replacement. -/
theorem gone_of_removed (inv : Inv db)
    (lawful : Lawful dialect call stage db state) {row : Job}
    (found : db.live.get job = some row) {write : Write}
    (member : write ∈ state.pending) (isRemoval : removes job write) :
    Gone job (after state.pending db) := by
  have noInsert := lawful.noInsert (by simp [found] : db.live.get job ≠ none)
  refine ⟨live_after_removed member isRemoval noInsert, ?_⟩
  rcases isRemoval with rfl | rfl
  · obtain ⟨moved, inserted, isJob⟩ := lawful.deleted job member
    refine Or.inl ⟨moved, history_after_inserted inserted ?_ ?_, isJob⟩
    · intro other isOther same
      have absent := inv.apart other isOther
      rw [same, isJob, found] at absent
      cases absent
    · intro other isOther same
      exact lawful.movedOnce other moved isOther inserted same
  · exact Or.inr (replaced_after_mem.mpr (Or.inr member))

theorem Seen.kept {createdAt : Time} (seen : Seen job createdAt db)
    (inv : Inv db) (lawful : Lawful dialect call stage db state) :
    Seen job createdAt (after state.pending db) := by
  rcases seen with ⟨row, found, isCreated⟩ | gone
  · by_cases removed : ∃ write ∈ state.pending, removes job write
    · obtain ⟨write, member, isRemoval⟩ := removed
      exact Or.inr (gone_of_removed inv lawful found member isRemoval)
    · have kept : ∀ write ∈ state.pending, ¬removes job write :=
        fun write member isRemoval => removed ⟨write, member, isRemoval⟩
      obtain ⟨new, isNew, rfl | updated⟩ := live_after_some found kept
      · exact Or.inl ⟨new, isNew, isCreated⟩
      · refine Or.inl ⟨new, isNew, ?_⟩
        obtain ⟨⟨live, isLive, same⟩, _⟩ := lawful.updated new updated
        have keyed : new.id = job := Table.key_of_get isNew
        rw [keyed, found] at isLive
        cases isLive
        exact same.createdAt.trans isCreated
  · exact Or.inr (gone.kept lawful)

theorem gone_lasting (job : JobId) : (backend cfg).Lasting (Gone job) := by
  apply lasting_of
  · intro db theirs other stage _ lawful _ gone
    exact gone.kept lawful
  · intro db next same gone
    rw [Gone, same.live, same.history, same.replaced]
    exact gone

theorem seen_lasting (job : JobId) (createdAt : Time) :
    (backend cfg).Lasting (Seen job createdAt) := by
  apply lasting_of
  · intro db theirs other stage inv lawful _ seen
    exact seen.kept inv lawful
  · intro db next same seen
    rw [Seen, Gone, same.live, same.history, same.replaced]
    exact seen

end Seen

/-! ## Releases -/

section Releases

variable {cfg : Config} {call : Call} {record : Record} {txn : Txn}
variable {db : Db} {state : Loc}

/-- Nothing is owed to a job that is gone. -/
theorem Lawful.paid {dialect : Dialect} {job : JobId}
    (lawful : Lawful dialect call (.owing job) db state)
    (absent : db.live.get job = none) :
    Lawful dialect call .clean db state :=
  { lawful with
    settled := by
      intro id other now outcome member
      cases lawful.settled id other now outcome member with
      | owing isOwing =>
          cases isOwing
          exact .gone absent
      | moves deleted => exact .moves deleted
      | leaves row member isJob notQueued =>
          exact .leaves row member isJob notQueued
      | gone absent => exact .gone absent
      | foreign target completes different =>
          exact .foreign target completes different
      | moving isMoving => cases isMoving
      | filed isFiled _ _ => cases isFiled
    moved := by
      intro row member
      obtain ⟨owned, live, deleted | moving⟩ := lawful.moved row member
      · exact ⟨owned, live, Or.inl deleted⟩
      · cases moving
    inserted := by
      intro row member
      obtain ⟨_, _, _, isFiled, _⟩ := lawful.inserted row member
      cases isFiled }

theorem At.paid {job : JobId} {stage : Stage} {sure : List Write}
    (here : At cfg call record { kind := ending, stage, sure } db state)
    (owes : stage = .clean ∨ stage = .owing job)
    (absent : db.live.get job = none) : Done cfg call record db state := by
  refine ⟨{ kind := ending, sure },
    ⟨rfl, rfl, fun _ => ending_of_plain⟩, ?_⟩
  rcases owes with rfl | rfl
  · exact here
  · exact { here with lawful := here.lawful.paid absent }

/-- The row of a move by id and creation time. -/
theorem admits_created {job : JobId} {createdAt : Time} {row : Job}
    (isJob : row.id = job) (isCreated : row.createdAt = createdAt) :
    ({ jobId := job, createdAt := some createdAt } : MoveFence).admits db row
      = true := by
  simp [MoveFence.admits, isJob, isCreated]

/-- A live row seen before is found by the move; if none is found, the job is
gone. -/
theorem lockForMove_seen {job : JobId} {createdAt : Time} {stage : Stage}
    {sure : List Write} {fails : Db → Loc → Prop}
    (owes : stage = .clean ∨ stage = .owing job) :
    (backend cfg).Spec call
      (fun db state =>
        At cfg call record { kind := ending, stage, sure } db state ∧
          Seen job createdAt db)
      (lockForMove cfg { jobId := job, createdAt := some createdAt })
      (fun rows db state =>
        (rows = [] → Done cfg call record db state) ∧
          (rows ≠ [] → At cfg call record
            { kind := ending, stage, sure,
              locks := [] ++ moveLock cfg job } db state)) fails := by
  have stable : (backend cfg).Stable fun db state =>
      At cfg call record { kind := ending, stage, sure } db state ∧
        Seen job createdAt db :=
    stable_and at_stable (lasting_stable (seen_lasting job createdAt))
  have stablePost : ∀ rows : List Job, (backend cfg).Stable fun db state =>
      (rows = [] → Done cfg call record db state) ∧
        (rows ≠ [] → At cfg call record
          { kind := ending, stage, sure,
            locks := [] ++ moveLock cfg job } db state) :=
    fun rows => stable_and (stable_when done_stable) (stable_when at_stable)
  have visible : ∀ db state row,
      At cfg call record { kind := ending, stage, sure } db state →
      db.live.get job = some row →
      (after state.pending db).live.get job = some row := by
    intro db state row here found
    refine view_of_live ?_ ?_ found
    · rintro write member (rfl | rfl) <;> cases here.only _ member
    · intro new member
      cases here.only _ member
  unfold lockForMove
  cases isDialect : cfg.dialect with
  | postgresql =>
      refine .exec stable stablePost ?_
      rintro snapshot current state others effect _ _ _ env
        ⟨earlier, seenBefore⟩ ⟨here, seen⟩ ran
      cases ran
      set rows := targets Db.live
        ({ jobId := job, createdAt := some createdAt } : MoveFence).admits
        ((backend cfg).sys.view snapshot state)
        ((backend cfg).sys.view current state) with isRows
      have lawful : ∀ locks, Lawful cfg.dialect call stage current
          (state.extend [] locks) := fun locks =>
        here.lawful.extendSame (plain_additions here.lawful (by simp))
          (by simp)
      refine ⟨by simp [backend], ?_, ?_⟩
      · intro notFound
        have absent : current.live.get job = none := by
          rcases seen with ⟨row, found, isCreated⟩ | gone
          · rcases seenBefore with ⟨old, wasFound, wasCreated⟩ | wasGone
            · have isJob : row.id = job := Table.key_of_get found
              have wasJob : old.id = job := Table.key_of_get wasFound
              have isTarget : row ∈ rows := by
                rw [isRows, mem_targets_iff, isJob]
                exact ⟨visible current state row here found,
                  admits_created isJob isCreated, old,
                  visible snapshot state old earlier wasFound,
                  admits_created wasJob wasCreated⟩
              have isEmpty : rows = [] := notFound
              rw [isEmpty] at isTarget
              cases isTarget
            · exact ((gone_lasting job).env env wasGone).1
          · exact gone.1
        have extended : ∀ locks, At cfg call record
            { kind := ending, stage, sure } current (state.extend [] locks) :=
          fun locks => here.extend (lawful locks) (fun _ isKind => isKind)
            (by simp) (by simp) (fun _ member => Or.inl member)
            fun _ member => Or.inl member
        exact (extended _).paid owes absent
      · intro found
        refine here.extend (lawful _) (fun _ isKind => isKind) (by simp)
          (by simp) (fun _ member => Or.inl member) ?_
        intro lock member
        refine Or.inr (List.mem_append_left _ ?_)
        obtain ⟨row, isRow⟩ := List.exists_mem_of_ne_nil _ found
        have isJob : row.id = job :=
          admits_id (mem_targets_iff.mp isRow).2.1
        simp only [moveLock, isDialect, List.nil_append,
          List.mem_singleton] at member
        rw [member, ← isJob]
        exact List.mem_map_of_mem isRow
  | sqlite =>
      refine ask_spec stable stablePost ?_
      rintro db state _ _ ⟨here, seen⟩
      constructor
      · intro none
        rcases seen with ⟨row, found, isCreated⟩ | gone
        · have isJob : row.id = job := Table.key_of_get found
          have member := Table.mem_of_get (visible db state row here found)
          have isListed : row ∈ (after state.pending db).live.rows.filter
              (({ jobId := job, createdAt := some createdAt } :
                MoveFence).admits (after state.pending db)) :=
            List.mem_filter.mpr ⟨member, admits_created isJob isCreated⟩
          rw [none] at isListed
          cases isListed
        · exact here.paid owes gone.1
      · intro _
        simpa [moveLock, isDialect] using here

/-- A job that is put back has its entry, if an attempt of it was closed. -/
theorem requeue_spec (job : Job) {stage : Stage} {sure : List Write}
    (quiet : call.sweeps = false) (owes : Owes stage sure job.id) :
    (backend cfg).Spec call
      (At cfg call record { kind := ending, stage, sure })
      (writeReady cfg [job]) (fun _ => Done cfg call record)
      (Recorded call record) := by
  rcases owes with rfl | ⟨rfl, id, now, outcome, closed⟩
  · refine (Inner.writeReady [job] false record _ (fun _ => ending_of_plain)
      fun _ isFiled => by cases isFiled).strengthen ?_ fun _ _ _ holds => holds
    intro _ db state _ holds
    exact ⟨_, ⟨rfl, rfl, fun _ => ending_of_plain⟩, holds⟩
  · refine (writeReady_released job (fun _ => ending_of_plain) (fun _ => rfl)
      (Or.inr ⟨rfl, quiet⟩) closed).strengthen ?_ fun _ _ _ holds => holds
    intro _ db state _ holds
    exact ⟨_, ⟨rfl, rfl, fun _ => ending_of_plain⟩, holds.1⟩

theorem releaseJob_spec (jobId : JobId) (quiet : call.sweeps = false) :
    (backend cfg).Spec call (Between cfg call record) (releaseJob cfg jobId)
      (fun _ => Between cfg call record) (Between cfg call record) := by
  apply session_spec
  apply inside (readRow_spec jobId _ fun _ _ found => filteredLive_id found)
  intro found
  refine .fact fun isJob => ?_
  cases found with
  | none => exact .pure at_stable fun _ _ _ _ holds => holds.recorded
  | some job =>
      apply inside (Inner.currentTime.trans record)
      intro now
      apply inside (closeUnfenced_spec jobId .abandoned now
        (judged_of_quiet quiet _))
      intro count
      refine .exists_ fun stage => .exists_ fun sure => .fact fun isEnded => ?_
      split
      · exact (rollback_spec at_stable fun _ _ holds =>
          holds.recorded).strengthen (fun _ _ _ _ holds => holds.recorded)
          fun _ _ _ holds => holds
      · have owes : Owes stage sure job.id := by
          rw [isJob job rfl]
          exact isEnded.1
        apply inside (requeue_spec job quiet owes)
        intro _
        exact commit_done.strengthen (fun _ _ _ _ holds => holds.recorded)
          fun _ _ _ holds => holds

theorem setStatus_spec (job : Job) {status : Status} {values : Values}
    {stage : Stage} {sure : List Write}
    (owes : stage = .clean ∨ stage = .owing job.id)
    (terminal : isTerminal status = false) (notQueued : status ≠ .queued)
    (quiet : call.sweeps = false) :
    (backend cfg).Spec call
      (At cfg call record { kind := ending, stage, sure })
      (setStatus cfg job status values) (fun _ => Done cfg call record)
      (Recorded call record) := by
  have unfiled : ∀ other, stage ≠ .filed other := by
    intro other isFiled
    rcases owes with clean | owing
    · cases clean.symm.trans isFiled
    · cases owing.symm.trans isFiled
  have notSuccess : status ≠ .success := by
    rintro rfl
    cases terminal
  unfold setStatus
  apply inside ((Inner.whenever (Inner.dropEntries [job.id])) record _
    (fun _ => ending_of_plain) unfiled)
  intro _
  refine inside (updateLive_spec job.id recorded_stable
    (fun _ => updating_of_ending) rfl ?_ (fun row => ⟨rfl, rfl, rfl⟩)
    (fun _ row _ => ⟨notSuccess, fun isQueued => (notQueued isQueued).elim⟩)
    (owes.imp id fun owing => ⟨owing, fun row => notQueued⟩)
    (judged_of_quiet quiet _)) fun count => ?_
  · intro db row same
    simp only [sameRow, Bool.and_eq_true, decide_eq_true_eq] at same
    exact same.1
  · split
    · rename_i single
      refine .pure (updated_stable count) fun db state _ _ holds => ?_
      exact At.doneUpdated (holds.2 (by omega))
    · refine .raise (updated_stable count) fun db state _ holds => ?_
      by_cases none : count = 0
      · exact (holds.1 none).recorded
      · exact (holds.2 none).recorded

/-- What a transaction that may commit has read may be forgotten. -/
theorem forgettingDone {pre : Db → Loc → Prop} {body : Sql Unit}
    (rows : List Job) (attempts : List Attempt)
    (spec : (backend cfg).Spec call pre body
      (fun _ => Done cfg call (record.reading rows attempts))
      (Recorded call (record.reading rows attempts))) :
    (backend cfg).Spec call pre body (fun _ => Done cfg call record)
      (Recorded call record) := by
  refine spec.strengthen ?_ fun _ _ _ holds => holds.forget
  rintro _ db state _ ⟨txn, isDone, here⟩
  exact ⟨txn, isDone, here.forget⟩

/-- What `release_claimed_job` records: the columns its caller gives, with the
time and the duration it works out itself. -/
def releaseValues (values : Values) (row : Job) (attempt : Option Attempt)
    (now : Time) : Values :=
  { values with
    finishedAt := values.finishedAt.or (some now)
    durationSeconds := values.durationSeconds.or (some
      (((attempt.map (·.claimedAt)).or row.startedAt).map (now - ·))) }

theorem releaseRow_spec (job : Job) (status : Status) (values : Values)
    (listed : job ∈ record.rows) (quiet : call.sweeps = false)
    (succeeds : status = .success → call.succeedsUnfenced = true)
    (finishes : ∀ db attempt now, Glimpse db job.id job attempt →
      Finishes call db job.id status (releaseValues values job attempt now)) :
    (backend cfg).Spec call
      (fun db state => Between cfg call record db state ∧
        Seen job.id job.createdAt db)
      (releaseRow cfg job status values) (fun _ => Done cfg call record)
      (Recorded call record) := by
  have lasting : (backend cfg).Lasting (Seen job.id job.createdAt) :=
    seen_lasting job.id job.createdAt
  unfold releaseRow
  apply inside ((openAttempts_spec job.id).frame lasting)
  intro attempt
  suffices ends : (∀ found, attempt = some found → found.jobId = job.id) →
      (backend cfg).Spec call
      (fun db state =>
        Between cfg call (record.reading [] attempt.toList) db state ∧
          Seen job.id job.createdAt db) _ (fun _ => Done cfg call record)
      (Recorded call record) by
    rintro db state inv guarded ⟨⟨isAttempt, here⟩, seen⟩
    exact ends isAttempt db state inv guarded ⟨here, seen⟩
  intro isAttempt
  apply forgettingDone [] attempt.toList
  let read := record.reading [] attempt.toList
  have mayEnd : MayEnd call read job.id none :=
    ⟨fun _ isSome => (by cases isSome), fun _ => judged_of_quiet quiet _⟩
  have finishesRead : ∀ now db state, Recorded call read db state →
      Finishes call db job.id status
        (releaseValues values job attempt now) := by
    intro now db state holds
    refine finishes db attempt now (holds.glimpse rfl isAttempt ?_ ?_)
    · exact List.mem_append_right _ listed
    · intro found isFound
      simp [read, Record.reading, isFound]
  apply inside ((closeAttempt_spec job.id none _ mayEnd).frame lasting)
  intro _
  apply inside (clock_spec (stable_and (attemptEnded_stable job.id none)
    (lasting_stable lasting)))
  intro finishedAt
  suffices rest : ∀ stage sure, (stage = .clean ∨ stage = .owing job.id) →
      Owes stage sure job.id → (backend cfg).Spec call
      (fun db state =>
        At cfg call read { kind := ending, stage, sure } db state ∧
          Seen job.id job.createdAt db) _ (fun _ => Done cfg call read)
      (Recorded call read) by
    rintro db state inv guarded ⟨⟨stage, sure, ⟨owes, closed, _⟩, here⟩, seen⟩
    exact rest stage sure owes (closed rfl) db state inv guarded ⟨here, seen⟩
  intro stage sure owes closed
  split
  · rename_i terminal
    have stable : (backend cfg).Stable fun db state =>
        At cfg call read { kind := ending, stage, sure } db state ∧
          Seen job.id job.createdAt db :=
      stable_and at_stable (lasting_stable lasting)
    have succeed : MaySucceed call job.id status none :=
      fun isSuccess => Or.inl (succeeds isSuccess)
    apply inside (finishIn_spec_of_lock stable done_stable
      (movable_ended none rfl owes (by simp) terminal
        (finishesRead finishedAt) succeed (judged_of_quiet quiet _))
      (lockForMove_seen owes))
    intro moved
    cases moved with
    | true => exact .pure at_stable fun _ _ _ _ holds => At.doneSettled holds
    | false => exact .pure done_stable fun _ _ _ _ holds => holds
  · rename_i terminal
    split
    · exact (requeue_spec job quiet closed).weaken fun _ _ _ holds => holds.1
    · rename_i notQueued
      rw [Bool.not_eq_true] at terminal
      exact (setStatus_spec job owes terminal notQueued quiet).weaken
        fun _ _ _ holds => holds.1

theorem releaseFound_spec (job : Job) (found : Option Job) (status : Status)
    (kwargs : Values) (quiet : call.sweeps = false)
    (succeeds : status = .success → call.succeedsUnfenced = true)
    (finishes : ∀ db row attempt now, Glimpse db job.id row attempt →
      Finishes call db job.id status (releaseValues kwargs row attempt now))
    (same : ∀ row, found = some row → row.id = job.id ∧
      row.createdAt = job.createdAt) :
    (backend cfg).Spec call
      (fun db state =>
        Between cfg call (record.reading found.toList []) db state ∧
        (found.isSome = true → Seen job.id job.createdAt db))
      (releaseFound cfg found status kwargs)
      (fun _ => Done cfg call record) (Recorded call record) := by
  apply forgettingDone found.toList []
  cases found with
  | none =>
      refine .weaken (.pure at_stable fun _ _ _ _ holds => ?_)
        fun _ _ _ holds => holds.1
      exact ⟨{}, ⟨rfl, rfl, fun _ isPlain => isPlain⟩, holds⟩
  | some row =>
      obtain ⟨isJob, isCreated⟩ := same row rfl
      have listed : row ∈ (record.reading [row] []).rows := by
        simp [Record.reading]
      refine (releaseRow_spec row status kwargs listed quiet succeeds
        ?_).weaken ?_
      · intro db attempt now glimpse
        rw [isJob] at glimpse ⊢
        exact finishes db row attempt now glimpse
      · intro db state _ holds
        rw [isJob, isCreated]
        exact ⟨holds.1, holds.2 rfl⟩

def setsWorker : Write → Bool
  | .setWorker _ => true
  | _ => false

theorem idleWorker_spec (worker : String) (jobsProcessed : Nat) :
    (backend cfg).Spec call (Done cfg call record)
      (idleWorker cfg worker jobsProcessed) (fun _ => Done cfg call record)
      (Recorded call record) := by
  refine .exists_ fun txn => .fact fun isDone => ?_
  have finish : (backend cfg).Spec call (At cfg call record txn)
      (pure () : Sql Unit) (fun _ => Done cfg call record)
      (Recorded call record) :=
    .pure at_stable fun _ _ _ _ holds => ⟨txn, isDone, holds⟩
  unfold idleWorker
  apply inside read_spec
  intro found
  cases found with
  | none => exact finish
  | some row =>
      apply inside (clock_spec at_stable)
      intro now
      refine inside (makes_spec (makes_dml Db.workers _ fun _ =>
        show setsWorker _ = true from rfl) ?_ isDone.2.2 ?_) fun _ => ?_
      · intro write isKind
        cases write <;> first | rfl | cases isKind
      · intro job _ write isKind drops
        cases drops <;> cases isKind
      · refine .pure at_stable fun _ _ _ _ holds => ⟨txn, isDone, ?_⟩
        exact holds.mono (fun _ isKind => isKind) rfl rfl
          (fun _ member => member) fun _ member => List.mem_append_left _ member

/-- The row read by id and creation time is seen. -/
theorem seenRow_spec (job : Job) {fails : Db → Loc → Prop} :
    (backend cfg).Spec call (Between cfg call record)
      (read fun db => (db.live.get job.id).filter fun row =>
        row.createdAt = job.createdAt : Sql (Option Job))
      (fun found db state =>
        (∀ row, found = some row → row.id = job.id ∧
          row.createdAt = job.createdAt) ∧
        (Between cfg call (record.reading found.toList []) db state ∧
          (found.isSome = true → Seen job.id job.createdAt db))) fails := by
  have seen : (backend cfg).Spec call (Between cfg call record)
      (read fun db => (db.live.get job.id).filter fun row =>
        row.createdAt = job.createdAt : Sql (Option Job))
      (fun found db _ => found.isSome = true → Seen job.id job.createdAt db)
      fails := by
    refine ask_spec at_stable (fun _ => stable_when (lasting_stable
      (seen_lasting job.id job.createdAt))) ?_
    intro db state _ _ here isSome
    obtain ⟨row, isRow⟩ := Option.isSome_iff_exists.mp isSome
    rw [Option.filter_eq_some_iff] at isRow
    exact Or.inl ⟨row, here.live_of_plain rfl isRow.1, by simpa using isRow.2⟩
  refine (((readLive_spec job.id _ _ fun _ _ isRow => isRow).and
    seen).weaken fun _ _ _ here => ⟨here, here⟩).strengthen ?_
    fun _ _ _ holds => holds
  rintro found db state _ ⟨⟨isRow, here⟩, isSeen⟩
  refine ⟨fun row isFound => ?_, here, isSeen⟩
  obtain ⟨isJob, isCreated⟩ := isRow row isFound
  exact ⟨isJob, by simpa using isCreated⟩

theorem Trans.findJob (jobId : JobId) : Trans cfg call (findJob jobId) :=
  fun _ => (findJob_spec jobId).strengthen
    (fun _ _ _ _ holds => holds.2) fun _ _ _ holds => holds

theorem Trans.reread (job : Job) : Trans cfg call (reread job) := by
  apply Trans.bind (Inner.read _).trans
  intro found
  cases found with
  | none => exact (Inner.raise _).trans
  | some row => exact Trans.pure ()

theorem Trans.releasedJob (found : Option Job) (status : Status) :
    Trans cfg call (releasedJob found status) := by
  cases found with
  | none => exact Trans.pure none
  | some row =>
      apply Trans.bind (Trans.whenever (Trans.reread row))
      intro _
      apply Trans.bind (Trans.findJob row.id)
      intro result
      exact Trans.pure _

theorem Outer.releaseClaimedJob (job : Job) (worker : String)
    (status : Status) (jobsProcessed : Nat) (kwargs : Values)
    (isCall : call =
      .releaseClaimedJob job worker status jobsProcessed kwargs)
    (quiet : call.sweeps = false)
    (succeeds : status = .success → call.succeedsUnfenced = true) :
    Outer cfg call
      (releaseClaimedJob cfg job worker status jobsProcessed kwargs) := by
  apply Outer.bind
  · intro record
    apply session_spec
    apply inside (seenRow_spec job)
    intro found
    refine .fact fun same => ?_
    apply inside (releaseFound_spec job found status kwargs quiet succeeds
      (fun db row attempt now glimpse => .released job worker status
        jobsProcessed kwargs row attempt now isCall glimpse rfl) same)
    intro _
    apply inside (idleWorker_spec worker jobsProcessed)
    intro _
    apply inside commit_done
    intro _
    exact (Trans.releasedJob found status record).strengthen
      (fun _ _ _ _ holds => holds.recorded) fun _ _ _ holds => holds
  · intro outcome
    split
    · apply Outer.bind (Outer.whenever (Outer.releaseDependentsQuietly _ _))
      intro _
      exact Outer.pure _
    · exact Outer.pure none

end Releases

/-! ## The repair of the entries -/

section Repairs

variable {cfg : Config} {call : Call}

theorem Inner.staleEntries (queues : List String) (limit : Nat) :
    Inner cfg call (staleEntries cfg queues limit) := by
  unfold Standalone.staleEntries
  cases cfg.dialect with
  | postgresql => exact Inner.exec (makes_skip Db.ready _ _ _ _)
  | sqlite => exact Inner.read _

theorem Inner.dropStale (entries : List Ready) (dropped : Nat) :
    Inner cfg call (dropStale cfg entries dropped) := by
  induction entries generalizing dropped with
  | nil => exact Inner.pure dropped
  | cons entry rest ih =>
      apply Inner.bind (Inner.deleteEntryStmt entry.slot entry.jobId)
      intro deleted
      exact ih _

theorem Outer.repairEntries (queues : List String) (limit : Nat)
    (afterJobId : JobId) :
    Outer cfg call (repairEntries cfg queues limit afterJobId) := by
  apply Trans.session
  apply Trans.bind (Inner.read _).trans
  intro lost
  apply Trans.bind (Inner.whenever (Inner.writeReady lost false)).trans
  intro _
  apply Trans.bind (Inner.staleEntries queues limit).trans
  intro stale
  apply Trans.bind (Inner.dropStale stale 0).trans
  intro dropped
  apply Trans.bind Trans.commit
  intro _
  apply Trans.bind (Inner.read _).trans
  intro page
  exact Trans.pure _

theorem Outer.maintainReadyQueue (queues : List String) (limit : Nat)
    (afterJobId : JobId) (quiet : call.sweeps = false)
    (tidies : call.tidies = true) :
    Outer cfg call (maintainReadyQueue cfg queues limit afterJobId) := by
  apply Outer.bind (Outer.settleFinishedJobs limit quiet tidies)
  intro settled
  apply Outer.bind (Outer.repairEntries queues limit afterJobId)
  intro repaired
  apply Outer.bind
  · apply Outer.each
    intro job
    exact Outer.recheckBlockedQuietly job.1 job.2
  · intro _
    exact Outer.pure _

end Repairs

end Sqlery.Standalone
