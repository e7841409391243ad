import Sqlery.Standalone.CallFootprints
import Sqlery.Standalone.Chronicle
import Sqlery.Standalone.Retries
import Sqlery.Standalone.Revoke

/-!
# A revoked job does not run again

After a revoke the job has its attempt still open, or is no longer live.  The
retry decision never looks at the flag: a failure that is to be retried leaves
a row that waits for its retry, and a released attempt leaves the job to the
next claim.
-/

namespace Sqlery.Standalone

open ReadCommitted
open Script

abbrev Revoking (n : Nat) := State Db Write Lock RevokeCall Return n

/-! ## The calls -/

/-- The workers release a claim and mark an ancestor with the status of a
finished job. -/
def RevokeCall.made : RevokeCall → Bool
  | .call (.cascadeAncestorStatus _ status) => isTerminal status
  | .call (.releaseClaimedJob _ _ status _ _) => isTerminal status
  | _ => true

/-- The call may record that the job has failed and will be retried. -/
def RevokeCall.decidesRetry (job : JobId) : RevokeCall → Bool
  | .call (.failExecution failed _ _ _ willRetry) =>
      willRetry && failed.id = job
  | .call (.markJobFailed jobId _ _ _ reason _) =>
      isRetryPending reason && jobId = job
  | .call (.cleanupStaleJobs _) => true
  | _ => false

/-- The sweep has found the job past its threshold. -/
def FoundOverdue (job : JobId) (state : Loc) : Prop :=
  ∃ attempt, .remark (.judged job attempt) ∈ state.noted

/-- The jobs the call creates are retries. -/
def RevokeCall.retries (call : RevokeCall) : Bool := call.like.retries

/-! ## A job that is not waiting for its retry -/

section Scope

variable {cfg : Config} {job : JobId} {db : Db}

/-- The job is not a live row that has failed. -/
def NotFailed (job : JobId) (db : Db) : Prop :=
  ∀ row, db.live.get job = some row → row.status ≠ .failed

/-- The write leaves no failed row of the job and creates no retry of it. -/
structure Spared (job : JobId) (retrying : Bool) (write : Write) : Prop where
  row : ∀ row, write.liveRow = some row → row.id = job →
    row.status ≠ .failed
  child : retrying = true → parentOf write ≠ some job

theorem NotFailed.apply {retrying : Bool} {write : Write}
    (notFailed : NotFailed job db) (spares : Spared job retrying write) :
    NotFailed job (write.apply db) := by
  intro row found
  rcases live_apply_origin found with rfl | rfl | earlier
  · exact spares.row row rfl (Table.key_of_get found)
  · exact spares.row row rfl (Table.key_of_get found)
  · exact notFailed row earlier

theorem NotFailed.applyAll {retrying : Bool} {writes : List Write}
    (notFailed : NotFailed job db)
    (spares : ∀ write ∈ writes, Spared job retrying write) :
    NotFailed job ((schema cfg.dialect).applyAll writes db) := by
  induction writes generalizing db with
  | nil => exact notFailed
  | cons write writes ih =>
      rw [Schema.applyAll_cons]
      exact ih (notFailed.apply (spares write (by simp)))
        fun later member => spares later (by simp [member])

/-- What a call sees of a job that has not failed, and writes. -/
def unfailed (job : JobId) (retrying : Bool) : Scope where
  sees := NotFailed job
  emits := Spared job retrying
  free := by
    intro write free
    constructor
    · intro row isRow
      cases write with
      | insertLive row => cases free
      | setLive row => cases free
      | _ => cases isRow
    · intro _ isChild
      cases write with
      | insertLive row => cases free
      | insertStaged row => cases free
      | _ => cases isChild

theorem unfailed_admitsNew {retrying : Bool} {spec : JobSpec}
    (other : retrying = true → spec.parentJobId ≠ some job) :
    (unfailed job retrying).AdmitsNew spec where
  live := by
    intro id createdAt
    constructor
    · intro row isRow _
      cases isRow
      simp
    · exact other
  staged := by
    intro id createdAt
    constructor
    · intro row isRow
      cases isRow
    · exact other

theorem unfailed_admitsFailure {retrying : Bool} {other : JobId}
    (different : other ≠ job) :
    (unfailed job retrying).AdmitsFailure other := by
  intro row isOther _ _
  constructor
  · intro written isRow same
    cases isRow
    exact (different (isOther.symm.trans same)).elim
  · intro _ isChild
    cases isChild

theorem retrySpec_other {failed : Job} {now : Time}
    (different : failed.id ≠ job) :
    (retrySpec cfg failed now).parentJobId ≠ some job := by
  simpa [retrySpec] using different

theorem unfailed_admits {call : Call}
    (made : (RevokeCall.call call).made = true)
    (keeps : (RevokeCall.call call).decidesRetry job = false) :
    (unfailed job call.retries).Admits cfg call := by
  cases call with
  | markJobFailed jobId error traceback version reason attempt =>
      intro pending
      apply unfailed_admitsFailure
      simpa [RevokeCall.decidesRetry, pending] using keeps
  | cascadeAncestorStatus => exact made
  | releaseClaimedJob => exact made
  | createJob => exact unfailed_admitsNew fun retries => by cases retries
  | advanceScheduledTaskIfDue =>
      exact unfailed_admitsNew fun retries => by cases retries
  | failExecution failed attempt error traceback willRetry =>
      intro retried
      have different : failed.id ≠ job := by
        simpa [RevokeCall.decidesRetry, retried] using keeps
      refine ⟨unfailed_admitsFailure different, fun again now same => ?_⟩
      exact unfailed_admitsNew fun _ => retrySpec_other (same ▸ different)
  | recoverLostRetries grace limit =>
      intro db cutoff notFailed failed member now
      apply unfailed_admitsNew
      intro _
      apply retrySpec_other
      rintro rfl
      have listed := (List.mem_insertionSort _).mp (List.mem_of_mem_take member)
      obtain ⟨live, selected⟩ := List.mem_filter.mp listed
      simp only [Bool.and_eq_true, decide_eq_true_eq] at selected
      exact notFailed failed (Table.get_of_mem live) selected.1.1
  | cleanupStaleJobs => cases keeps
  | _ => trivial

/-- The calls that decide on a retry may write any row. -/
def unbounded : Scope where
  sees _ := True
  emits _ := True
  free _ _ := trivial

theorem deciding_keeps {call : RevokeCall}
    (decides : call.decidesRetry job = true) :
    unbounded.Keeps (revokeScript cfg call) := by
  have new : ∀ spec, unbounded.AdmitsNew spec :=
    fun _ => ⟨fun _ _ => trivial, fun _ _ => trivial⟩
  have failure : ∀ job, unbounded.AdmitsFailure job :=
    fun _ _ _ _ _ => trivial
  cases call with
  | call known =>
      apply scriptOf_keeps
      cases known with
      | markJobFailed => exact fun _ => failure _
      | failExecution => exact fun _ => ⟨failure _, fun _ _ _ => new _⟩
      | cleanupStaleJobs => exact ⟨failure, fun _ _ => new _⟩
      | _ => cases decides
  | _ => cases decides

theorem requestJobRevoke_keeps {other : JobId} {retrying : Bool} :
    (unfailed job retrying).Keeps (requestJobRevoke cfg other) := by
  apply Emits.session
  apply Emits.bind
  · apply keeps_updateLive
    intro db row admitted
    have queued : row.status = .queued := by
      simp only [Bool.and_eq_true, Db.running, decide_eq_true_eq] at admitted
      exact admitted.2.1
    constructor
    · intro written isRow _
      cases isRow
      simp [queued]
    · intro _ isChild
      cases isChild
  · exact fun _ => .bind .commit fun _ => .pure _

theorem revoke_keeps {call : RevokeCall} (made : call.made = true)
    (keeps : call.decidesRetry job = false) :
    (unfailed job call.retries).Keeps (revokeScript cfg call) := by
  cases call with
  | call known => exact scriptOf_keeps (unfailed_admits made keeps)
  | requestJobRevoke other => exact .map requestJobRevoke_keeps
  | pollRevoke other childPid attempt =>
      apply Emits.map
      apply Emits.bind (.session (.read _))
      intro requested
      cases requested with
      | false => exact .pure _
      | true =>
          apply Emits.quietly
          apply EmitsWith.forget (markJobFailed_finds fun pending => ?_)
          exact absurd pending (by decide)

variable (cfg job) in
/-- The calls keep the job from waiting for a retry, except those that decide
to retry it. -/
def spared : Footprint (revoking cfg).sys where
  inv := NotFailed job
  made call := call.made = true
  sees call db := call.decidesRetry job = false → NotFailed job db
  emits call write := call.decidesRetry job = false →
    Spared job call.retries write
  drifts := Aside
  bodies := by
    intro call made
    cases decides : call.decidesRetry job with
    | false =>
        have keeps : (unfailed job call.retries).Keeps
            (revokeScript cfg call) := revoke_keeps made decides
        apply Prog.Emits.mono keeps
        · exact fun db seen => seen rfl
        · exact fun write spares _ => spares
        · exact fun result _ => trivial
    | true =>
        have keeps : unbounded.Keeps (revokeScript cfg call) :=
          deciding_keeps decides
        apply Prog.Emits.mono keeps
        · exact fun db _ => trivial
        · intro write _ never
          cases never
        · exact fun result _ => trivial
  seen := by
    intro call db pending notFailed spares decides
    exact notFailed.applyAll fun write member => spares write member decides
  drifting := by
    intro db write aside notFailed row found
    have same : (write.apply db).live = db.live := aside db
    exact notFailed row (same ▸ found)
  ambient := by
    intro write isAmbient db
    cases write <;> first | rfl | cases isAmbient

end Scope

/-! ## What a commit keeps -/

section Commit

variable {dialect : Dialect} {call : Call} {stage : Stage} {db : Db}
variable {state : Loc} {job : JobId}

/-- The job has an open attempt, or had one and is no longer live. -/
structure Bound (job : JobId) (db : Db) : Prop where
  tried : ∃ attempt ∈ db.attempts.rows, attempt.jobId = job
  held : db.hasOpenAttempt job = true ∨ db.live.get job = none

theorem bound_of_running (running : db.hasOpenAttempt job = true) :
    Bound job db := by
  obtain ⟨attempt, member, runs⟩ := List.any_eq_true.mp running
  exact ⟨⟨attempt, member, (runs_iff.mp runs).1⟩, Or.inl running⟩

/-- A sweep leaves the jobs alone that it did not find past their threshold. -/
theorem spared_of_swept (lawful : Lawful dialect call stage db state)
    (sweeps : call.sweeps = true) (young : ¬FoundOverdue job state)
    (retrying : Bool) : ∀ write ∈ state.pending,
      Spared job retrying write := by
  intro write member
  have never : sweptJob write ≠ some job := fun isJob =>
    young (lawful.swept sweeps write member job isJob)
  constructor
  · intro row isRow isJob
    cases write with
    | insertLive new =>
        cases isRow
        rw [(lawful.inserted _ member).2.1]
        simp
    | setLive set =>
        cases isRow
        exact (never (congrArg some isJob)).elim
    | _ => cases isRow
  · intro _ isChild
    cases write with
    | insertLive new => exact never isChild
    | insertStaged new => exact never isChild
    | _ => cases isChild

theorem Bound.noInsert (bound : Bound job db)
    (lawful : Lawful dialect call stage db state) :
    ∀ new, .insertLive new ∈ state.pending → new.id ≠ job := by
  rintro new inserted rfl
  obtain ⟨attempt, member, isJob⟩ := bound.tried
  exact (lawful.inserted new inserted).1.attempts attempt member isJob

/-- No commit opens an attempt of such a job. -/
theorem Bound.attempts (bound : Bound job db)
    (lawful : Lawful dialect call stage db state) {attempt : Attempt}
    (member : attempt ∈ (after state.pending db).attempts.rows)
    (isJob : attempt.jobId = job) :
    ∃ old ∈ db.attempts.rows, old.id = attempt.id ∧ old.jobId = job := by
  obtain ⟨old, origin, sameJob, _⟩ :=
    attempts_after_cases (Table.get_of_mem member)
  rcases origin with earlier | ⟨inserted, _⟩
  · exact ⟨old, Table.mem_of_get earlier, Table.key_of_get earlier,
      sameJob.symm.trans isJob⟩
  · have claimable := (lawful.opened old inserted).2.2
    rw [← sameJob.symm.trans isJob] at bound
    rcases bound.held with running | gone
    · rw [claimable.idle] at running
      cases running
    · obtain ⟨row, found, _⟩ := claimable.row
      rw [gone] at found
      cases found

/-- A commit that closes the attempt of such a job only when it moves the job
keeps it so. -/
theorem Bound.kept (bound : Bound job db)
    (lawful : Lawful dialect call stage db state)
    (closes : ∀ id now outcome,
      .closeAttempt id job now outcome ∈ state.pending →
      .deleteLive job ∈ state.pending) :
    Bound job (after state.pending db) where
  tried := by
    obtain ⟨attempt, member, isJob⟩ := bound.tried
    obtain ⟨new, found, sameJob, _⟩ :=
      attempts_after_present state.pending (Table.get_of_mem member)
    exact ⟨new, Table.mem_of_get found, sameJob.trans isJob⟩
  held := by
    have noInsert := bound.noInsert lawful
    rcases bound.held with running | gone
    · obtain ⟨attempt, member, runs⟩ := List.any_eq_true.mp running
      have found := Table.get_of_mem member
      by_cases closed : ∃ write ∈ state.pending,
        Standalone.closes attempt.id write
      · obtain ⟨_, isWrite, owner, now, outcome, rfl⟩ := closed
        obtain ⟨closing, isClosing, runsOwner⟩ :=
          lawful.closed _ _ _ _ isWrite
        rw [found] at isClosing
        cases isClosing
        have same : owner = job :=
          (runs_iff.mp runsOwner).1.symm.trans (runs_iff.mp runs).1
        subst same
        exact Or.inr (live_after_removed (closes _ _ _ isWrite)
          (Or.inl rfl) noInsert)
      · have kept := attempts_after_kept found fun write isWrite isClose =>
          closed ⟨write, isWrite, isClose⟩
        exact Or.inl (List.any_eq_true.mpr
          ⟨attempt, Table.mem_of_get kept, runs⟩)
    · exact Or.inr (live_after_none gone noInsert)

theorem Bound.sameTables {next : Db} (bound : Bound job db)
    (same : SameTables db next) : Bound job next where
  tried := by
    rw [same.attempts]
    exact bound.tried
  held := by
    rw [Db.hasOpenAttempt, same.attempts, same.live]
    exact bound.held

/-- The job was created and does not wait to be claimed. -/
structure Spent (job : JobId) (db : Db) : Prop where
  known : Known db job
  idle : ∀ row, db.live.get job = some row → row.status ≠ .queued

theorem spent_of_failed (failed : ¬NotFailed job db) : Spent job db := by
  unfold NotFailed at failed
  push Not at failed
  obtain ⟨row, found, status⟩ := failed
  constructor
  · exact Or.inl ⟨row, List.mem_append_left _ (Table.mem_of_get found),
      Table.key_of_get found⟩
  · intro other isOther
    rw [found] at isOther
    cases isOther
    simp [status]

/-- Only a requeueing commit could make it wait again. -/
theorem Spent.kept (spent : Spent job db) (inv : Inv db)
    (lawful : Lawful dialect call stage db state)
    (requeues : call.requeues = true → FlagsQueued db state) :
    Spent job (after state.pending db) where
  known := spent.known.kept inv lawful
  idle := by
    intro row found queued
    have isJob : row.id = job := Table.key_of_get found
    rcases live_after_origin found with inserted | updated | earlier
    · apply (lawful.inserted row inserted).1.unknown
      rw [isJob]
      exact spent.known
    · obtain ⟨set, live, isSet, _, isLive, wasQueued⟩ :=
        requeues ((lawful.updated row updated).2.2 queued) _ updated
      cases isSet
      rw [isJob] at isLive
      exact spent.idle live isLive wasQueued
    · exact spent.idle row earlier queued

theorem Spent.sameTables {next : Db} (spent : Spent job db)
    (same : SameTables db next) : Spent job next where
  known := spent.known.sameTables same
  idle := by
    rw [same.live]
    exact spent.idle

end Commit

/-! ## Runs -/

section Runs

variable {cfg : Config} {n : Nat} {state next : Revoking n}
variable {action : Action Write RevokeCall n} {process : Fin n} {job : JobId}

/-- The states the processes reach from a fresh database. -/
def RevokesReach (cfg : Config)
    (allowed : Revoking n → Action Write RevokeCall n → Prop)
    (state : Revoking n) : Prop :=
  ∃ tasks registered clock, (revoking cfg).sys.Reaches allowed
    (System.initial (installed tasks registered clock)) state

/-- The processes make their calls, and any of them may crash. -/
def MakesCalls (_ : Revoking n) (action : Action Write RevokeCall n) : Prop :=
  ∀ process call, action = .start process call → call.made = true

/-- No failure with the decision to retry the job commits, nor a sweep that
found the job past its threshold, and an attempt of the job is closed only by a
transaction that moves the job to history. -/
structure Heeds (job : JobId) (state : Revoking n)
    (action : Action Write RevokeCall n) : Prop where
  decides : ∀ process call,
    System.committing state action = some (process, call) →
    call.decidesRetry job = true →
    (call.like.sweeps = true → FoundOverdue job (state.session process).state) →
    (state.session process).state.pending = []
  closes : ∀ process call,
    System.committing state action = some (process, call) →
    ∀ id now outcome,
      .closeAttempt id job now outcome ∈
        (state.session process).state.pending →
      .deleteLive job ∈ (state.session process).state.pending

/-- A revoke that counts a row commits while the job is running. -/
structure Revokes (cfg : Config) (job : JobId) (state : Revoking n)
    (process : Fin n) (flagged : Revoking n) : Prop where
  committing : System.committing state (.step process) =
    some (process, .requestJobRevoke job)
  flags : (state.session process).state.pending ≠ []
  running : ∃ row, state.db.live.get job = some row ∧
    state.db.running row = true
  taken : (revoking cfg).sys.act state (.step process) = some flagged

/-- An attempt of the job that was not there before. -/
def AttemptedAgain (job : JobId) (first last : Revoking n) : Prop :=
  ∃ attempt ∈ last.db.attempts.rows, attempt.jobId = job ∧
    ∀ old ∈ first.db.attempts.rows, old.id ≠ attempt.id

/-- A retry of the job has been committed in between. -/
def RetriedAgain (job : JobId) (first last : Revoking n) : Prop :=
  ∃ entry ∈ last.journal.drop first.journal.length,
    entry.1.retries = true ∧ ∃ write ∈ entry.2, parentOf write = some job

theorem RevokesReach.good
    {allowed : Revoking n → Action Write RevokeCall n → Prop}
    (reached : RevokesReach cfg allowed state) :
    (revoking cfg).Good (fun _ _ _ _ => True) state := by
  obtain ⟨tasks, registered, clock, run⟩ := reached
  exact Setting.sound (revoking_verified cfg)
    (inv_installed tasks registered clock) run

theorem sameTables_of_quiet
    (quiet : (revoking cfg).Quiet state next action) :
    SameTables state.db next.db := by
  cases quiet.db with
  | same isSame => exact isSame ▸ .refl _
  | instant call local_ writes promised isAfter =>
      exact isAfter ▸ sameTables_after promised _
  | ambient write _ isAmbient isAfter =>
      exact isAfter ▸
        sameTables_apply (isCounter_of_isAmbient isAmbient) _

/-- Only revokes among the calls that are made may keep a row queued. -/
theorem flagsQueued_of_requeues {call : RevokeCall} {db : Db} {local_ : Loc}
    (made : call.made = true) (beyond : call.beyond db local_)
    (requeues : call.like.requeues = true) : FlagsQueued db local_ := by
  cases call with
  | requestJobRevoke => exact beyond
  | pollRevoke => cases requeues
  | call known =>
      cases known with
      | cascadeAncestorStatus ancestor status =>
          have queued : status = .queued := of_decide_eq_true requeues
          rw [queued] at made
          cases made
      | _ => cases requeues

/-- What is known of the states before the revoke: the job has not failed, and
every write under way keeps it so, or it will never be claimed again. -/
structure Before (cfg : Config) (job : JobId) (state : Revoking n) : Prop where
  made : ∀ process call, (state.session process).call = some call →
    call.made = true
  fate : (spared cfg job).Good state ∨ Spent job state.db

theorem Before.act (before : Before cfg job state)
    (good : (revoking cfg).Good (fun _ _ _ _ => True) state)
    (makes : MakesCalls state action)
    (taken : (revoking cfg).sys.act state action = some next) :
    Before cfg job next := by
  rcases good.act_cases taken with ⟨process, call, committed⟩ | quiet
  · obtain ⟨⟨stage, _, lawful⟩, beyond⟩ := committed.promised
    have isAfter : next.db = after (state.session process).state.pending
        state.db := committed.db
    refine ⟨committed.made before.made, ?_⟩
    rcases before.fate with fits | spent
    · by_cases notFailed : NotFailed job next.db
      · refine Or.inl (fits.act makes ?_ taken)
        intro committer other committing _
        rw [committed.committing] at committing
        cases committing
        rw [committed.db] at notFailed
        exact notFailed
      · exact Or.inr (spent_of_failed notFailed)
    · rw [isAfter]
      exact Or.inr (spent.kept good.inv lawful
        (flagsQueued_of_requeues (before.made process call committed.isCall)
          beyond))
  · refine ⟨quiet.made makes before.made, ?_⟩
    rcases before.fate with fits | spent
    · refine Or.inl (fits.act makes ?_ taken)
      intro committer other committing _
      rw [quiet.committing] at committing
      cases committing
    · exact Or.inr (spent.sameTables (sameTables_of_quiet quiet))

theorem RevokesReach.before
    {allowed : Revoking n → Action Write RevokeCall n → Prop}
    (makes : ∀ state action, allowed state action → MakesCalls state action)
    (reached : RevokesReach cfg allowed state) (job : JobId) :
    Before cfg job state := by
  obtain ⟨tasks, registered, clock, run⟩ := reached
  apply (revoking_verified cfg).induct (inv_installed tasks registered clock)
    ?_ ?_ run
  · constructor
    · intro process call isCall
      cases isCall
    · apply Or.inl
      apply Footprint.good_initial
      intro row found
      cases found
  · exact fun _ _ _ good before permitted taken =>
      before.act good (makes _ _ permitted) taken

/-- What holds from the commit of a revoke on. -/
structure Heeded (cfg : Config) (job : JobId) (flagged state : Revoking n) :
    Prop where
  good : (revoking cfg).Good (fun _ _ _ _ => True) state
  fits : (spared cfg job).Good state
  bound : Bound job state.db
  attempts : ∀ attempt ∈ state.db.attempts.rows, attempt.jobId = job →
    ∃ old ∈ flagged.db.attempts.rows, old.id = attempt.id
  retries : ∃ since, state.journal = flagged.journal ++ since ∧
    ∀ entry ∈ since, entry.1.retries = true →
      ∀ write ∈ entry.2, parentOf write ≠ some job

theorem Heeded.act {flagged : Revoking n}
    (heeded : Heeded cfg job flagged state)
    (makes : MakesCalls state action) (heeds : Heeds job state action)
    (taken : (revoking cfg).sys.act state action = some next) :
    Heeded cfg job flagged next := by
  have good := heeded.good.act (revoking_verified cfg).for
    (fun _ _ _ => trivial) taken
  rcases heeded.good.act_cases taken with ⟨process, call, committed⟩ | quiet
  · obtain ⟨⟨stage, _, lawful⟩, _⟩ := committed.promised
    have isAfter : next.db = after (state.session process).state.pending
        state.db := committed.db
    have spares : ∀ write ∈ (state.session process).state.pending,
        Spared job call.retries write := by
      intro write member
      cases decides : call.decidesRetry job with
      | false =>
          exact heeded.fits.emitted committed.committing write member decides
      | true =>
          by_cases decided : call.like.sweeps = true →
              FoundOverdue job (state.session process).state
          · rw [heeds.decides process call committed.committing decides
              decided] at member
            cases member
          · obtain ⟨sweeps, young⟩ := Classical.not_imp.mp decided
            exact spared_of_swept lawful sweeps young _ write member
    have fits : (spared cfg job).Good next := by
      refine heeded.fits.act makes ?_ taken
      intro committer other committing _
      rw [committed.committing] at committing
      cases committing
      exact NotFailed.applyAll heeded.fits.inv spares
    refine ⟨good, fits, ?_, ?_, ?_⟩
    · rw [isAfter]
      exact heeded.bound.kept lawful
        (heeds.closes process call committed.committing)
    · intro attempt member isJob
      rw [isAfter] at member
      obtain ⟨old, isOld, sameId, sameJob⟩ :=
        heeded.bound.attempts lawful member isJob
      obtain ⟨first, isFirst, same⟩ := heeded.attempts old isOld sameJob
      exact ⟨first, isFirst, same.trans sameId⟩
    · obtain ⟨since, journal, spared⟩ := heeded.retries
      refine ⟨since ++ [(call, (state.session process).state.pending)], ?_, ?_⟩
      · rw [committed.journal, journal, List.append_assoc]
      · intro entry member retries write isWrite
        rcases List.mem_append.mp member with earlier | now
        · exact spared entry earlier retries write isWrite
        · cases List.mem_singleton.mp now
          exact (spares write isWrite).child retries
  · have same := sameTables_of_quiet quiet
    have fits : (spared cfg job).Good next := by
      refine heeded.fits.act makes ?_ taken
      intro committer other committing _
      rw [quiet.committing] at committing
      cases committing
    refine ⟨good, fits, heeded.bound.sameTables same, ?_, ?_⟩
    · rw [same.attempts]
      exact heeded.attempts
    · rw [quiet.journal]
      exact heeded.retries

/-- The revoke's own commit. -/
theorem Revokes.heeded {flagged : Revoking n}
    (revokes : Revokes cfg job state process flagged)
    (good : (revoking cfg).Good (fun _ _ _ _ => True) state)
    (before : Before cfg job state) : Heeded cfg job flagged flagged := by
  obtain ⟨row, found, running⟩ := revokes.running
  simp only [Db.running, Bool.and_eq_true, decide_eq_true_eq] at running
  have isJob : row.id = job := Table.key_of_get found
  have fits : (spared cfg job).Good state := by
    rcases before.fate with fits | spent
    · exact fits
    · exact (spent.idle row found running.1).elim
  have bound : Bound job state.db := bound_of_running (isJob ▸ running.2)
  rcases good.act_cases revokes.taken with ⟨committer, call, committed⟩ | quiet
  · have isCommit := committed.committing
    rw [revokes.committing] at isCommit
    cases isCommit
    obtain ⟨⟨stage, _, lawful⟩, flags⟩ := committed.promised
    have isAfter : flagged.db = after (state.session process).state.pending
        state.db := committed.db
    refine ⟨good.act (revoking_verified cfg).for (fun _ _ _ => trivial)
      revokes.taken, ?_, ?_, ?_, ⟨[], by simp, by simp⟩⟩
    · refine fits.act ?_ ?_ revokes.taken
      · intro _ _ isStart
        cases isStart
      · intro other call isCommitting emits
        rw [revokes.committing] at isCommitting
        cases isCommitting
        exact NotFailed.applyAll fits.inv fun write member =>
          emits write member rfl
    · rw [isAfter]
      apply bound.kept lawful
      intro id now outcome member
      obtain ⟨_, _, isSet, _⟩ := flags _ member
      cases isSet
    · exact fun attempt member _ => ⟨attempt, member, rfl⟩
  · have isQuiet := quiet.committing
    rw [revokes.committing] at isQuiet
    cases isQuiet

/-- As long as neither a failure with the decision to retry the job is recorded
nor a sweep fails it for its age, and its attempt is closed only together with
the job's move to history, a job revoked while it was running has no new attempt
and no retry. -/
theorem revoked_not_again {flagged later : Revoking n}
    (reached : RevokesReach cfg MakesCalls state)
    (revokes : Revokes cfg job state process flagged)
    (run : (revoking cfg).sys.Reaches (fun state action =>
      MakesCalls state action ∧ Heeds job state action) flagged later) :
    ¬AttemptedAgain job flagged later ∧ ¬RetriedAgain job flagged later := by
  have heeded : Heeded cfg job flagged later := by
    induction run with
    | refl =>
        exact revokes.heeded reached.good
          (reached.before (fun _ _ makes => makes) job)
    | step _ permitted taken ih => exact ih.act permitted.1 permitted.2 taken
  constructor
  · rintro ⟨attempt, member, isJob, fresh⟩
    obtain ⟨old, isOld, same⟩ := heeded.attempts attempt member isJob
    exact fresh old isOld same
  · rintro ⟨entry, member, retries, write, isWrite, isChild⟩
    obtain ⟨since, journal, spared⟩ := heeded.retries
    rw [journal, List.drop_left] at member
    exact spared entry member retries write isWrite isChild

end Runs

/-! ## Concrete runs -/

section Concrete

def startsCalls (_ : Revoking 2) : Action Write RevokeCall 2 → Bool
  | .start _ call => call.made
  | _ => true

theorem makesCalls_of_startsCalls (state : Revoking 2)
    (action : Action Write RevokeCall 2)
    (checked : startsCalls state action = true) : MakesCalls state action := by
  intro process call isStart
  subst isStart
  exact checked

def heeds (job : JobId) (state : Revoking 2)
    (action : Action Write RevokeCall 2) : Bool :=
  match System.committing state action with
  | some (process, call) =>
      let pending := (state.session process).state.pending
      (!call.decidesRetry job || pending.isEmpty) &&
        (pending.all (fun write => !(closedJob write == some job)) ||
          pending.any fun write => match write with
            | .deleteLive moved => moved = job
            | _ => false)
  | none => true
where
  closedJob : Write → Option JobId
    | .closeAttempt _ owner _ _ => some owner
    | _ => none

theorem heeds_sound (job : JobId) (state : Revoking 2)
    (action : Action Write RevokeCall 2)
    (checked : heeds job state action = true) : Heeds job state action := by
  constructor
  · intro process call committing decides _
    simp only [heeds, committing, decides, Bool.and_eq_true] at checked
    simpa using checked.1
  · intro process call committing id now outcome closing
    simp only [heeds, committing, Bool.and_eq_true, Bool.or_eq_true]
      at checked
    rcases checked.2 with none | some
    · have never := List.all_eq_true.mp none _ closing
      simp [heeds.closedJob] at never
    · obtain ⟨write, member, isDelete⟩ := List.any_eq_true.mp some
      cases write with
      | deleteLive moved => exact of_decide_eq_true isDelete ▸ member
      | _ => cases isDelete

/-- A job that may be retried is claimed, and its row is flagged by a revoke
that has not committed. -/
def revokesClaimed : List (Action Write RevokeCall 2) :=
  Action.calls 0 (.call (.createJob { maxRetries := 3 })) 13 ++
    Action.calls 0 (.call (.claimJob ["default"] "worker")) 12 ++
    Action.calls 1 (.requestJobRevoke 1) 2

/-- The state a list of actions leads to from `state`, if each passes a
check. -/
def revokingTo (check : Revoking 2 → Action Write RevokeCall 2 → Bool)
    (state : Revoking 2) (actions : List (Action Write RevokeCall 2)) :
    Option (Revoking 2) :=
  (revoking sqlite).sys.runWhile check state actions

theorem revokesClaimed_ran : (revokingTo startsCalls
    (System.initial (installed .empty .empty 0)) revokesClaimed).isSome =
      true := by
  decide +kernel

def flagging : Revoking 2 := (revokingTo startsCalls
  (System.initial (installed .empty .empty 0)) revokesClaimed).get
    revokesClaimed_ran

theorem flagging_reached : RevokesReach sqlite MakesCalls flagging :=
  ⟨.empty, .empty, 0, System.reaches_of_runWhile _
    makesCalls_of_startsCalls (Option.some_get revokesClaimed_ran).symm⟩

theorem flagging_commits :
    ((revoking sqlite).sys.act flagging (.step 1)).isSome = true := by
  decide +kernel

/-- The revoke has returned true. -/
def flagged : Revoking 2 :=
  ((revoking sqlite).sys.act flagging (.step 1)).get flagging_commits

theorem flagging_revokes : Revokes sqlite 1 flagging 1 flagged where
  committing := rfl
  flags := by
    have some : (flagging.session 1).state.pending.isEmpty = false := by
      decide +kernel
    simpa using some
  running := by
    have running : (flagging.db.live.get 1).any flagging.db.running = true := by
      decide +kernel
    exact (Option.any_eq_true _ _).mp running
  taken := (Option.some_get flagging_commits).symm

/-- The worker polls, kills the child and fails the job; the recovery of lost
retries runs after it. -/
def pollsRevoke : List (Action Write RevokeCall 2) :=
  Action.calls 0 (.pollRevoke 1 77 (some firstHandle)) 26 ++
    Action.calls 0 (.call (.recoverLostRetries (seconds 60) 100)) 3

theorem pollsRevoke_ran : (revokingTo (fun state action =>
    startsCalls state action && heeds 1 state action) flagged
      pollsRevoke).isSome = true := by
  decide +kernel

theorem revoked_not_again_polled : ∃ state flagged later : Revoking 2,
    RevokesReach sqlite MakesCalls state ∧
    Revokes sqlite 1 state 1 flagged ∧
    later.db.live.get 1 = none ∧
    ¬AttemptedAgain 1 flagged later ∧ ¬RetriedAgain 1 flagged later := by
  have run : (revoking sqlite).sys.Reaches (fun state action =>
      MakesCalls state action ∧ Heeds 1 state action) flagged _ :=
    System.reaches_of_runWhile _ (fun state action checked => by
      rw [Bool.and_eq_true] at checked
      exact ⟨makesCalls_of_startsCalls state action checked.1,
        heeds_sound 1 state action checked.2⟩)
      (Option.some_get pollsRevoke_ran).symm
  have moved : ((revokingTo _ flagged pollsRevoke).get
      pollsRevoke_ran).db.live.get 1 = none := by
    decide +kernel
  exact ⟨flagging, flagged, _, flagging_reached, flagging_revokes, moved,
    revoked_not_again flagging_reached flagging_revokes run⟩

/-- The child fails on its own before the next poll. -/
def failsRevoked : List (Action Write RevokeCall 2) :=
  Action.calls 0 (.call failing) 44

theorem failsRevoked_ran :
    (revokingTo startsCalls flagged failsRevoked).isSome = true := by
  decide +kernel

/-- A revoked job whose child fails by itself is retried. -/
theorem revoked_retried : ¬∀ (state flagged later : Revoking 2),
    RevokesReach sqlite MakesCalls state →
    Revokes sqlite 1 state 1 flagged →
    (revoking sqlite).sys.Reaches MakesCalls flagged later →
    ¬AttemptedAgain 1 flagged later ∧ ¬RetriedAgain 1 flagged later := by
  intro never
  have run : (revoking sqlite).sys.Reaches MakesCalls flagged _ :=
    System.reaches_of_runWhile _ makesCalls_of_startsCalls
      (Option.some_get failsRevoked_ran).symm
  apply (never flagging flagged _ flagging_reached flagging_revokes run).2
  have retried : (((revokingTo startsCalls flagged failsRevoked).get
      failsRevoked_ran).journal.drop flagged.journal.length).any
        (fun entry => entry.1.retries && entry.2.any fun write =>
          parentOf write = some 1) = true := by
    decide +kernel
  obtain ⟨entry, member, isRetry⟩ := List.any_eq_true.mp retried
  rw [Bool.and_eq_true] at isRetry
  obtain ⟨write, isWrite, isChild⟩ := List.any_eq_true.mp isRetry.2
  exact ⟨entry, member, isRetry.1, write, isWrite,
    of_decide_eq_true isChild⟩

end Concrete

end Sqlery.Standalone
