import Sqlery.Standalone.Claim
import Sqlery.Standalone.Moving

/-!
# Opening attempts

`_start_attempt` opens an attempt only for a queued, idle job whose row it has
locked.  A claim that returns a job has inserted one attempt, and it is an
attempt of that job.
-/

namespace Sqlery.Standalone

open ReadCommitted
open Setting (stable_and stable_exists stable_fact stable_when)
open Script

section Counters

variable {writes : List Write}

theorem nextAttempt_after (none : .nextAttempt ∉ writes) (db : Db) :
    (after writes db).nextAttempt = db.nextAttempt := by
  induction writes generalizing db with
  | nil => rfl
  | cons write writes ih =>
      rw [List.mem_cons, not_or] at none
      rw [after_cons, ih none.2]
      cases write with
      | nextAttempt => exact (none.1 rfl).elim
      | _ => rfl

theorem nextJob_after (none : .nextJob ∉ writes) (db : Db) :
    (after writes db).nextJob = db.nextJob := by
  induction writes generalizing db with
  | nil => rfl
  | cons write writes ih =>
      rw [List.mem_cons, not_or] at none
      rw [after_cons, ih none.2]
      cases write with
      | nextJob => exact (none.1 rfl).elim
      | _ => rfl

end Counters

section Open

variable {cfg : Config} {call : Call} {record : Record} {txn : Txn}
variable {db : Db} {state : Loc} {now : Time}

/-- A transaction that has written something, hence the only writer on
SQLite. -/
def writing (cfg : Config) : Txn := { locks := writerLock cfg.dialect }

/-- The writes of a claim. -/
def opening : Write → Bool
  | .insertAttempt _ => true
  | write => plain write

theorem At.noPlain {write : Write} (holds : At cfg call record txn db state)
    (isPlain : txn.kind = plain) (unfit : plain write = false) :
    write ∉ state.pending := by
  intro member
  have fits := holds.only write member
  rw [isPlain, unfit] at fits
  cases fits

/-- A transaction with plain writes sees the committed live rows. -/
theorem At.live_of_plain (holds : At cfg call record txn db state)
    (isPlain : txn.kind = plain) {job : JobId} {row : Job}
    (found : (after state.pending db).live.get job = some row) :
    db.live.get job = some row :=
  live_of_view (fun _ => holds.noPlain isPlain rfl)
    (fun _ => holds.noPlain isPlain rfl) found

/-- Either no row is found or its lock is held. -/
def JobLocked (cfg : Config) (call : Call) (record : Record) (job : JobId)
    (found : Option Job) (db : Db) (state : Loc) : Prop :=
  At cfg call record (writing cfg) db state ∧
    ∀ row, found = some row → Locked cfg job (some row) db state

theorem jobLocked_stable (job : JobId) (found : Option Job) :
    (backend cfg).Stable (JobLocked cfg call record job found) := by
  refine stable_and at_stable ?_
  intro before after state env inv guarded holds row isRow
  exact locked_stable job (some row) before after state env inv guarded
    (holds row isRow)

theorem lockJob_spec (job : Job) {fails : Db → Loc → Prop}
    (stableFails : (backend cfg).Stable fails) :
    (backend cfg).Spec call (At cfg call record (writing cfg))
      (lockJob cfg job) (JobLocked cfg call record job.id) fails := by
  have isJob : ∀ row, sameRow job row = true → row.id = job.id := by
    intro row same
    simp only [sameRow, Bool.and_eq_true, decide_eq_true_eq] at same
    exact same.1
  unfold lockJob
  cases isDialect : cfg.dialect with
  | postgresql =>
      have stable : ∀ rows : List Job, (backend cfg).Stable
          (JobLocked cfg call record job.id rows.head?) :=
        fun rows => jobLocked_stable job.id rows.head?
      refine .bind stableFails (.exec at_stable stable ?_) fun rows =>
        .pure (stable rows) fun _ _ _ _ holds => holds
      intro snapshot current state others effect _ _ _ _ _ here ran
      cases ran
      refine ⟨by simp [backend], ?_, ?_⟩
      · refine here.extend ?_ (fun _ isKind => isKind) (by simp) (by simp)
          (fun _ member => Or.inl member) fun _ member => Or.inl member
        exact here.lawful.extendSame (plain_additions here.lawful (by simp))
          (by simp)
      · intro row isHead
        have member := List.mem_of_mem_take (List.mem_of_mem_head? isHead)
        obtain ⟨old, _, taken⟩ := List.mem_filterMap.mp member
        rw [Option.ite_none_left_eq_some, Option.filter_eq_some_iff] at taken
        obtain ⟨_, isCurrent, same⟩ := taken
        have keyed : row.id = old.id := Table.key_of_get isCurrent
        constructor
        · rw [Owns, isDialect, ← isJob row same]
          refine List.mem_append_right _ (List.mem_append_left _ ?_)
          exact List.mem_map_of_mem (List.mem_of_mem_head? isHead)
        · rw [← isJob row same, keyed]
          exact here.live_of_plain rfl isCurrent
  | sqlite =>
      refine ask_spec at_stable (jobLocked_stable job.id) ?_
      intro db state _ _ here
      refine ⟨here, ?_⟩
      intro row isHead
      have member := List.mem_filter.mp (List.mem_of_mem_head? isHead)
      constructor
      · exact owns_of_writer _ isDialect here.locks
      · rw [← isJob row member.2]
        exact here.live_of_plain rfl (Table.get_of_mem member.1)

theorem isRunning_spec {job : JobId} {row : Job} {fails : Db → Loc → Prop} :
    (backend cfg).Spec call
      (fun db state => At cfg call record (writing cfg) db state ∧
        Locked cfg job (some row) db state)
      (isRunning job)
      (fun running db state =>
        (At cfg call record (writing cfg) db state ∧
          Locked cfg job (some row) db state) ∧
          (running = false → Idle cfg job db state)) fails := by
  refine ask_spec (stable_and at_stable (locked_stable _ _))
    (fun running => stable_and (stable_and at_stable (locked_stable _ _))
      (stable_when (idle_stable _))) ?_
  rintro db state _ _ ⟨here, locked⟩
  refine ⟨⟨here, locked⟩, fun idle => ⟨locked.1, ?_⟩⟩
  exact idle_of_view (fun _ _ _ _ => here.noPlain rfl rfl) idle

/-- The transaction has opened one attempt, of the given job. -/
def Opened (cfg : Config) (call : Call) (record : Record) (job : JobId)
    (handle : AttemptHandle) (db : Db) (state : Loc) : Prop :=
  ∃ attempt : Attempt, (handle = .ofAttempt attempt ∧ attempt.jobId = job ∧
      attempt.isOpen = true) ∧
    At cfg call record { kind := opening, made := [.insertAttempt attempt] }
      db state

theorem opened_stable (job : JobId) (handle : AttemptHandle) :
    (backend cfg).Stable (Opened cfg call record job handle) :=
  stable_exists fun _ => stable_and stable_fact at_stable

theorem opening_additions {attempt : Attempt} {locks : List Lock}
    (opens : call.opens = true) (here : At cfg call record txn db state)
    (isPlain : txn.kind = plain)
    (owned : Owns cfg.dialect state (.live attempt.jobId))
    (isOpen : attempt.isOpen = true) (claimable : Claimable db attempt) :
    Additions cfg.dialect call txn.stage db state [.insertAttempt attempt]
      locks where
  opened := by
    intro new member
    rw [List.mem_singleton, Write.insertAttempt.injEq] at member
    subst member
    exact ⟨List.mem_append_left _ owned, isOpen, claimable⟩
  openedBy := fun _ _ => opens
  openedOnce := by
    intro first second isFirst isSecond
    rw [List.mem_singleton, Write.insertAttempt.injEq] at isFirst
    rcases List.mem_append.mp isSecond with old | new
    · exact (here.noPlain isPlain rfl old).elim
    · rw [List.mem_singleton, Write.insertAttempt.injEq] at new
      rw [isFirst, new]
  paired := by
    intro retries parent
    rw [← List.append_assoc, createdFor_append]
    exact here.lawful.paired retries parent

theorem insertAttempt_spec {job : JobId} {row : Job}
    {worker : Option WorkerId} {fails : Db → Loc → Prop}
    (opens : call.opens = true) (queued : row.status = .queued) :
    (backend cfg).Spec call
      (fun db state => (At cfg call record (writing cfg) db state ∧
          Locked cfg job (some row) db state) ∧ Idle cfg job db state)
      (insertAttempt cfg job worker now)
      (Opened cfg call record job) fails := by
  refine .exec (stable_and (stable_and at_stable (locked_stable _ _))
    (idle_stable _)) (opened_stable job) ?_
  rintro snapshot current state others effect _ inv _ _ _
    ⟨⟨here, locked⟩, idle⟩ ran
  cases ran
  set attempt : Attempt := {
    id := ((backend cfg).sys.view current state).nextAttempt
    jobId := job
    token := cfg.newToken ((backend cfg).sys.view current state).nextAttempt
    workerId := worker
    workerPid := some cfg.pid
    claimedAt := now } with isAttempt
  have drawn : attempt.id = current.nextAttempt :=
    nextAttempt_after (here.noPlain rfl rfl) current
  have absent : current.attempts.get attempt.id = none := by
    rw [Table.get_eq_none_iff]
    intro old member same
    have older := (inv.attemptIds old member).1
    rw [same, drawn] at older
    exact Nat.lt_irrefl _ older
  have moved : SameTables current (after [.nextAttempt] current) :=
    sameTables_after (by simp [isCounter]) current
  have later : At cfg call record (writing cfg) (after [.nextAttempt] current)
      state :=
    { here with
      lawful := here.lawful.sameTables moved
      recorded := here.recorded.later moved.remembering }
  have claimable : Claimable (after [.nextAttempt] current) attempt := by
    refine ⟨⟨row, ?_, queued⟩, ?_, ?_, ?_⟩
    · rw [moved.live]
      exact locked.2
    · rw [Db.hasOpenAttempt, moved.attempts]
      exact idle.2
    · rw [moved.attempts]
      exact absent
    · rw [drawn]
      exact Nat.lt_succ_self _
  refine ⟨?_, attempt, ⟨rfl, rfl, rfl⟩, ?_⟩
  · intro write member
    rw [List.mem_singleton] at member
    rw [member]
    rfl
  · refine later.extend ?_ ?_ ?_ rfl (by simp) (by simp)
    · exact later.lawful.extendSame
        (opening_additions opens later rfl locked.1 rfl claimable)
        fun job isFiled => by cases isFiled
    · intro write isPlain
      cases write <;> first | rfl | exact isPlain
    · simp [opening]

/-- What `_start_attempt` leaves behind. -/
def Started (cfg : Config) (call : Call) (record : Record) (job : JobId)
    (result : Option AttemptHandle × ClaimOutcome) (db : Db) (state : Loc) :
    Prop :=
  match result.1 with
  | some handle => Opened cfg call record job handle db state
  | none => At cfg call record (writing cfg) db state

theorem startAttempt_spec (opens : call.opens = true) (job : Job)
    (worker : Option WorkerId) :
    (backend cfg).Spec call (At cfg call record (writing cfg))
      (startAttempt cfg job worker now) (Started cfg call record job.id)
      (Recorded call record) := by
  unfold startAttempt
  refine inside (lockJob_spec job recorded_stable) fun found => ?_
  cases found with
  | none =>
      exact .weaken (.pure at_stable fun _ _ _ _ holds => holds)
        fun _ _ _ holds => holds.1
  | some row =>
      refine .weaken (inside isRunning_spec fun running => ?_)
        fun _ _ _ holds => ⟨holds.1, holds.2 row rfl⟩
      split
      · rename_i isOk
        obtain ⟨queued, idle, _⟩ := claimVerdict_eq_ok.mp isOk
        refine .weaken (inside (insertAttempt_spec opens queued)
          fun handle => ?_)
          fun _ _ _ holds => ⟨holds.1, holds.2 idle⟩
        exact .pure (opened_stable _ _) fun _ _ _ _ holds => holds
      · split
        · exact .weaken (.pure at_stable fun _ _ _ _ holds => holds)
            fun _ _ _ holds => holds.1.1
        · exact .weaken (.pure at_stable fun _ _ _ _ holds => holds)
            fun _ _ _ holds => holds.1.1

/-! ## Claims -/

/-- Between transactions, after a claim that returned `claimed`: a claimed job
comes with one attempt on record, its own. -/
def Claims (cfg : Config) (call : Call) (record : Record)
    (claimed : Option Claimed) (db : Db) (state : Loc) : Prop :=
  match claimed with
  | none => Between cfg call record db state
  | some claimed => ∃ attempt : Attempt,
      (claimed.handle = .ofAttempt attempt ∧
        claimed.job.id = attempt.jobId ∧ attempt.isOpen = true) ∧
      Between cfg call
        { record with
          wrote := record.wrote ++ [.insertAttempt attempt]
          ahead := [] } db state

theorem claims_stable (claimed : Option Claimed) :
    (backend cfg).Stable (Claims cfg call record claimed) := by
  cases claimed with
  | none => exact at_stable
  | some claimed =>
      exact stable_exists fun _ => stable_and stable_fact at_stable

/-- The commit of an opened attempt. -/
theorem commit_claim {job : Job} {handle : AttemptHandle}
    {fails : Db → Loc → Prop} :
    (backend cfg).Spec call (Opened cfg call record job.id handle)
      (commit : Sql Unit)
      (fun _ => Claims cfg call record (some (asRunning job handle)))
      fails := by
  refine .exists_ fun attempt => .fact fun isOpened => ?_
  obtain ⟨isHandle, isJob, isOpen⟩ := isOpened
  refine (commit_made [] rfl (by simp)).strengthen ?_ fun _ _ _ holds => holds
  intro _ db state _ holds
  exact ⟨attempt, ⟨isHandle, isJob.symm, isOpen⟩, holds⟩

end Open

end Sqlery.Standalone
