import Sqlery.Django.BulkMoves
import Sqlery.Django.PoolRules

/-!
# The attempt fence and the pool worker

A worker's claim has been put back and the job claimed again.  The worker's own
completion is rejected, as its attempt is no longer open; but the rejection is
an exception, and the clean-up after an exception asks for no attempt.
-/

namespace Sqlery.Django.PoolWorker

open ReadCommitted
open BulkUpdate

/-! ## Facts about attempts -/

/-- The attempt of the handle is not open. -/
def Stale (handle : AttemptHandle) (db : Db) : Prop :=
  ∀ attempt ∈ db.attempts, handle.names attempt = true →
    attempt.isOpen = false

/-- The attempt is open and runs the job. -/
def RunsAs (id : AttemptId) (job : JobId) (db : Db) : Prop :=
  ∃ attempt ∈ db.attempts, attempt.id = id ∧ attempt.runs job = true

/-- The object is that of the job, with the attempt and the version it was read
with. -/
structure Carries (handle : AttemptHandle) (key : Key) (version : Nat)
    (held : Held) : Prop where
  attempt : held.attempt = some handle
  key : keyOf held.row = key
  version : held.row.version = version

theorem runs_close {attempt : Attempt} {at_ : Time} {outcome : Outcome}
    {job : JobId} : (attempt.close at_ outcome).runs job = false := by
  simp [Attempt.runs]

theorem not_runsAs_closeAll {outcome : Outcome} {job : JobId} {db : Db}
    {id : AttemptId} : ¬RunsAs id job (closeAll outcome job db) := by
  rintro ⟨attempt, member, _, runs⟩
  obtain ⟨old, _, rfl⟩ := List.mem_map.mp member
  by_cases open_ : old.runs job = true
  · rw [if_pos open_, runs_close] at runs
    cases runs
  · rw [if_neg open_] at runs
    exact open_ runs

theorem not_runsAs_closeAttempts {status : Status} {job other : JobId}
    {db : Db} {id : AttemptId} (past : ¬RunsAs id job db) :
    ¬RunsAs id job (closeAttempts status other db) := by
  rintro ⟨attempt, member, isId, runs⟩
  obtain ⟨old, isOld, rfl⟩ := List.mem_map.mp member
  by_cases open_ : old.runs other = true
  · rw [if_pos open_, runs_close] at runs
    cases runs
  · rw [if_neg open_] at runs isId
    exact past ⟨old, isOld, isId, runs⟩

/-! ## A stale completion is rejected -/

section Rejected

variable {setting : Setting} {fact : Db → Prop} {handle : AttemptHandle}
  {key : Key} {version : Nat}

/-- Exceptions end the script, and what lasts is left. -/
def Rejects {α : Type} (fact : Db → Prop) (handle : AttemptHandle) (key : Key)
    (version : Nat) (script : Script α) (state : State) : Prop :=
  Ends (fun _ _ => False)
    (fun exc next => exc.isException = true ∧ fact next.db ∧
      Carries handle key version next.job)
    script state

theorem closeHandle_stale {state : State} {outcome : Outcome}
    (stale : Stale handle (setting.world state.moment state.db)) :
    Ends (fun _ _ => False)
      (fun exc next => exc.isException = true ∧ next.job = state.job)
      (closeHandle setting handle outcome) state := by
  have none_ : ((setting.world state.moment state.db).attempts.filter
      fun attempt => handle.names attempt && attempt.isOpen) = [] := by
    rw [List.filter_eq_nil_iff]
    intro attempt member open_
    rw [Bool.and_eq_true] at open_
    rw [stale attempt member open_.1] at open_
    cases open_.2
  simp only [closeHandle, ends_bind, ends_meets, ends_store, none_,
    List.length_nil, decideClose]
  simp [Exc.ofCore, Exc.isException]

theorem closeAttempt_stale {state : State} {outcome : Outcome}
    (carries : Carries handle key version state.job)
    (stale : Stale handle (setting.world state.moment state.db)) :
    Ends (fun _ _ => False)
      (fun exc next => exc.isException = true ∧ next.job = state.job)
      (closeAttempt setting outcome) state := by
  simp only [closeAttempt, ends_bind, ends_heldJob, carries.attempt]
  exact closeHandle_stale stale

variable (lasts : Lasts setting fact)
  (stale : ∀ db, fact db → Stale handle db)

include lasts stale

/-- A transaction that closes the attempt first is rolled back. -/
theorem rejects_closing (state : State) {outcome : Outcome}
    {rest : Unit → Script Unit} (carries : Carries handle key version state.job)
    (holds : fact state.db) :
    Rejects fact handle key version
      (transaction setting (closeAttempt setting outcome >>= rest)) state := by
  unfold Rejects
  rw [ends_transaction, ends_bind]
  apply (closeAttempt_stale carries
    (stale _ (lasts _ _ holds))).ofRaises
  rintro exc next ⟨caught, same⟩
  exact ⟨caught, lasts.replay _ holds, same ▸ carries⟩

omit stale in
theorem attemptColumns_keeps {state : State} (holds : fact state.db) :
    Ends (fun _ next => next.job = state.job ∧ fact next.db)
      (fun _ _ => False) (attemptColumns setting) state := by
  simp only [attemptColumns, ends_bind, ends_heldJob, ends_ite, ends_pure,
    ends_meets]
  split
  · exact ⟨trivial, holds⟩
  · exact ⟨trivial, lasts _ _ holds⟩

theorem markSuccess_rejects {state : State} {output : Output}
    (carries : Carries handle key version state.job) (holds : fact state.db) :
    Rejects fact handle key version (markSuccess setting output) state := by
  unfold Rejects markSuccess
  cases output with
  | awaitable typeName => exact ⟨rfl, holds, carries⟩
  | text output =>
      simp only [awaited, ends_bind, ends_heldJob, ends_now]
      apply (attemptColumns_keeps lasts holds).ofReturns
      rintro columns ⟨nextDb, nextJob, moment⟩ ⟨rfl, nextHolds⟩
      simp only [ends_bind, ends_editJob, ends_heldJob]
      have edited : Carries handle key version { state.job with
          row := finishes columns state.db.clock .success output ""
            state.job.row } :=
        ⟨carries.attempt, carries.key, carries.version⟩
      apply (rejects_closing lasts stale ⟨nextDb, _, moment⟩ edited
        nextHolds).ofRaises
      intro exc final rejected
      exact rejected

theorem markFailed_rejects {state : State} {error traceback reason : String}
    (drops : ∀ ids db, fact db → fact (remove ids db))
    (carries : Carries handle key version state.job) (holds : fact state.db) :
    Rejects fact handle key version (markFailed setting error traceback reason)
      state := by
  unfold Rejects markFailed
  simp only [ends_bind, ends_heldJob, ends_now]
  apply (attemptColumns_keeps lasts holds).ofReturns
  rintro columns ⟨nextDb, nextJob, moment⟩ ⟨rfl, nextHolds⟩
  simp only [ends_bind, ends_editJob, ends_heldJob, ends_transaction,
    removeEntries, ends_ite, ends_meets, ends_store, ends_pure]
  have edited : Carries handle key version { state.job with
      row := finishes columns state.db.clock .failed "" error
        state.job.row } :=
    ⟨carries.attempt, carries.key, carries.version⟩
  have closes : ∀ later : State, fact later.db →
      Carries handle key version later.job →
      Ends (fun _ _ => False) (fun exc last => exc.isException = true ∧
        last.job = later.job) (closeAttempt setting .failed) later := by
    intro later laterHolds laterCarries
    exact closeAttempt_stale laterCarries (stale _ (lasts _ _ laterHolds))
  split
  · have dropped := drops [state.job.row.id] _ (lasts moment _ nextHolds)
    apply (closes ⟨_, _, moment + 1⟩ dropped edited).ofRaises
    rintro exc last ⟨caught, sameJob⟩
    exact ⟨caught, lasts.replay _ nextHolds, sameJob ▸ edited⟩
  · have stays : fact nextDb := nextHolds
    apply (closes ⟨nextDb, _, moment⟩ stays edited).ofRaises
    rintro exc last ⟨caught, sameJob⟩
    exact ⟨caught, lasts.replay _ nextHolds, sameJob ▸ edited⟩

theorem failTask_rejects {state : State} {exc : Exc}
    (drops : ∀ ids db, fact db → fact (remove ids db))
    (carries : Carries handle key version state.job) (holds : fact state.db) :
    Rejects fact handle key version (failTask setting exc) state := by
  unfold Rejects failTask
  simp only [ends_bind, ends_heldJob]
  apply (markFailed_rejects lasts stale drops carries holds).ofRaises
  intro _ _ rejected
  exact rejected

theorem settleTask_rejects {state : State} {ended : Ended}
    (drops : ∀ ids db, fact db → fact (remove ids db))
    (ordinary : ∀ exc, ended = .raised exc → exc.isException = true)
    (carries : Carries handle key version state.job) (holds : fact state.db) :
    Rejects fact handle key version (settleTask setting ended) state := by
  unfold Rejects settleTask
  rw [ends_catching]
  cases ended with
  | returned result =>
      apply (markSuccess_rejects lasts stale carries holds).ofRaises
      rintro exc next ⟨caught, nextHolds, nextCarries⟩
      rw [if_pos caught]
      exact failTask_rejects lasts stale drops nextCarries nextHolds
  | raised exc =>
      rw [ends_throw, if_pos (ordinary exc rfl)]
      exact failTask_rejects lasts stale drops carries holds

end Rejected

/-! ## The clean-up -/

section CleanUp

variable {setting : Setting} {past : List Attempt → Prop}

/-- Closing the attempts of a job does not end the fact. -/
def Closing (past : List Attempt → Prop) : Prop :=
  ∀ (status : Status) (job : JobId) (db : Db), past db.attempts →
    past (closeAttempts status job db).attempts

theorem past_moveCurrent (closing : Closing past) {world : Nat → Db → Db}
    (lasts : ∀ moment db, past db.attempts → past (world moment db).attempts)
    {known : List Key} {status : Status} (keys : List Key) :
    ∀ {statement : Nat} {held : List JobId} {db : Db}, past db.attempts →
      past (moveCurrent world known status keys statement held
        db).2.attempts := by
  induction keys with
  | nil =>
      intro statement held db holds
      exact holds
  | cons key keys induction =>
      intro statement held db holds
      have seen : past (interfere held known (world statement) db).attempts :=
        lasts statement db holds
      simp only [moveCurrent]
      split
      · exact induction seen
      · rename_i row _
        have taken : past (interfere (key.1 :: held) known
            (world (statement + 1)) (moveRow status row
              (interfere held known (world statement) db))).attempts :=
          lasts (statement + 1) _ seen
        exact induction (closing status key.1 _ taken)

theorem past_updateToTerminal (closing : Closing past) {world : Nat → Db → Db}
    (lasts : ∀ moment db, past db.attempts → past (world moment db).attempts)
    {filter : Filter} {kwargs : Kwargs} {start : Db}
    (holds : past start.attempts) :
    past (updateToTerminal filter kwargs world start).after.attempts := by
  have cleared : ∀ {condition : Prop} [Decidable condition] {ids : List JobId}
      {db : Db}, past db.attempts →
        past (if condition then remove ids db else db).attempts := by
    intro condition _ ids db isOver
    split
    · exact isOver
    · exact isOver
  have read := lasts 0 _ holds
  have atRemove := lasts 1 (interfere [] [] (world 0) start) read
  simp only [updateToTerminal]
  cases keepsLive : kwargs.terminationReason.any isRetryPending with
  | true =>
      simp only [if_true]
      exact lasts 3 _ (lasts 2 _ (cleared atRemove))
  | false =>
      simp only [Bool.false_eq_true, if_false]
      exact past_moveCurrent closing lasts _
        (lasts 3 _ (lasts 2 _ (cleared atRemove)))

variable (lasts : Lasts setting fun db => past db.attempts)

include lasts

omit lasts in
theorem refreshIfThere_keeps (fact : Db → Prop) (keeps : Lasts setting fact)
    {state : State} (holds : fact state.db) :
    Ends (fun _ next => fact next.db) (fun _ _ => False)
      (refreshIfThere setting) state := by
  have seen := keeps state.moment _ holds
  have later := keeps (state.moment + 1) _ seen
  have refresh : Ends (fun _ next => fact next.db)
      (fun exc next => exc.kind = .doesNotExist ∧ fact next.db)
      (refreshFromDb setting) state := by
    simp only [refreshFromDb, ends_bind, ends_heldJob, ends_meets]
    split
    · simp only [ends_bind, ends_editJob, ends_ite, ends_meets, ends_pure]
      split
      · split
        · exact later
        · exact later
      · exact seen
    · split
      · exact seen
      · exact ⟨rfl, seen⟩
  unfold Ends refreshIfThere
  unfold Ends at refresh
  split at refresh
  · rename_i found
    rw [found]
    exact refresh
  · rename_i missing
    rw [missing]
    simp only [refresh.1, if_true]
    exact refresh.2

variable (past) in
/-- After the sweep no attempt of the job is open. -/
theorem releaseRow_sweeps {state : State} {status : Status}
    {terminal : isTerminal status = true} {change : Job → Job}
    (closing : Closing past)
    (swept : ∀ outcome db,
      past (closeAll outcome state.job.row.id db).attempts) :
    Ends (fun _ next => past next.db.attempts) (fun _ _ => False)
      (releaseRow setting status terminal change) state := by
  unfold releaseRow closeOpen
  simp only [ends_bind, ends_heldJob, ends_meets, ends_store, ends_now]
  apply refreshIfThere_keeps (fun db => past db.attempts) lasts
  exact past_updateToTerminal closing (fun moment => lasts _) (swept _ _)

omit lasts in
/-- A worker whose own row is gone can not release a job. -/
theorem releaseJob_unregistered {fact : Db → Prop} (keeps : Lasts setting fact)
    {state : State} {status : Status} {terminal : isTerminal status = true}
    {change : Job → Job} (gone : setting.registered = false)
    (holds : fact state.db) :
    Ends (fun _ _ => False) (fun _ next => fact next.db)
      (releaseJob setting status terminal change) state := by
  have always : Lasts setting fun _ => True := fun _ _ _ => trivial
  unfold releaseJob saveWorker
  rw [ends_transaction, ends_bind]
  apply (releaseRow_sweeps (fun _ => True) always
    (fun _ _ _ _ => trivial) fun _ _ => trivial).ofReturns
  intro _ next _
  simp only [gone, Bool.false_eq_true, if_false, ends_throw]
  exact keeps.replay _ holds

variable (past) in
theorem releaseJob_sweeps {state : State} {status : Status}
    {terminal : isTerminal status = true} {change : Job → Job}
    (registered : setting.registered = true) (closing : Closing past)
    (swept : ∀ outcome db,
      past (closeAll outcome state.job.row.id db).attempts) :
    Ends (fun _ next => past next.db.attempts) (fun _ _ => False)
      (releaseJob setting status terminal change) state := by
  unfold releaseJob saveWorker
  rw [ends_transaction, ends_bind]
  apply (releaseRow_sweeps past lasts closing swept).ofReturns
  intro _ next holds
  simp only [registered, if_true, ends_pure]
  exact holds

end CleanUp

/-! ## A job that was claimed again -/

/-- The job that `held` runs under `handle` has been put back, and is claimed
under `second`.  Tokens are not given twice, and a closed attempt stays
closed. -/
inductive ClaimedAgain (held : Held) (handle second : AttemptHandle) :
    Db → Prop where
  | intro {before after : Db} {between : Db → Db} {other claimed : Held}
      {backSlot pid : Nat} {free : Bool} {slot : Option Nat}
      {worker : Option WorkerId} {token : String}
      (owns : held.attempt = some handle)
      (queued : (before.live.get held.row.id).any fun row =>
        row.status = .queued)
      (own : ∀ attempt ∈ before.attempts, handle.names attempt = true →
        attempt.jobId = held.row.id)
      (later : ∀ db, Stale handle db → Stale handle (between db))
      (same : keyOf other.row = keyOf held.row)
      (fresh : token ≠ handle.token)
      (claims : atomicClaimJob free slot worker pid token other
        (between (putBack backSlot held.row.id before)) = (some claimed, after))
      (named : claimed.attempt = some second) :
      ClaimedAgain held handle second after

theorem stale_putBack {handle : AttemptHandle} {db : Db} {job : JobId}
    (slot : Nat)
    (queued : (db.live.get job).any fun row => row.status = .queued)
    (own : ∀ attempt ∈ db.attempts, handle.names attempt = true →
      attempt.jobId = job) : Stale handle (putBack slot job db) := by
  have closed : Stale handle (closeAll .abandoned job db) := by
    intro attempt member names
    obtain ⟨old, isOld, rfl⟩ := List.mem_map.mp member
    by_cases open_ : old.runs job = true
    · rw [if_pos open_]
      rfl
    · rw [if_neg open_] at names ⊢
      have ofJob := own old isOld names
      simpa [Attempt.runs, ofJob] using open_
  obtain ⟨row, found, isQueued⟩ := (Option.any_eq_true _ _).mp queued
  have kept : (db.live.get job).filter (fun row => row.status = .queued) =
      some row := Option.filter_eq_some_iff.mpr ⟨found, isQueued⟩
  simp only [putBack, kept]
  split
  · unfold addEntry
    split
    · exact closed
    · exact closed
  · rename_i idle
    intro attempt member names
    by_contra open_
    apply idle
    simp only [openFor, List.any_eq_true]
    refine ⟨attempt, member, ?_⟩
    simpa [Attempt.runs, own attempt member names] using open_

theorem claim_opens {free : Bool} {slot : Option Nat}
    {worker : Option WorkerId} {pid : Nat} {token : String}
    {other claimed : Held} {db after : Db}
    (claims : atomicClaimJob free slot worker pid token other db =
      (some claimed, after)) :
    ∃ attempt : Attempt, claimed.attempt = some (.ofAttempt attempt) ∧
      attempt.runs other.row.id = true ∧ attempt.token = token ∧
      after.attempts = attempt :: db.attempts := by
  simp only [atomicClaimJob] at claims
  split at claims
  · split at claims
    · cases claims
    · cases claims
    · cases claims
      refine ⟨_, rfl, ?_, rfl, rfl⟩
      simp [newAttempt, Attempt.runs, Attempt.isOpen]
  · cases claims

section ClaimedAgain

variable {held : Held} {handle second : AttemptHandle} {db : Db}

theorem ClaimedAgain.carries (again : ClaimedAgain held handle second db) :
    Carries handle (keyOf held.row) held.row.version held := by
  cases again with
  | intro owns _ _ _ _ _ _ _ => exact ⟨owns, rfl, rfl⟩

theorem ClaimedAgain.runs (again : ClaimedAgain held handle second db) :
    RunsAs second.id held.row.id db := by
  cases again with
  | intro _ _ _ _ same _ claims named =>
      obtain ⟨attempt, isClaimed, runs, _, attempts⟩ := claim_opens claims
      rw [isClaimed] at named
      cases named
      have sameId : _ = held.row.id := congrArg Prod.fst same
      refine ⟨attempt, ?_, rfl, sameId ▸ runs⟩
      rw [attempts]
      exact List.mem_cons_self

theorem ClaimedAgain.stale (again : ClaimedAgain held handle second db) :
    Stale handle db := by
  cases again with
  | @intro _ _ _ _ _ backSlot _ _ _ _ _ _ queued own later _ fresh claims _ =>
      obtain ⟨attempt, _, _, isToken, attempts⟩ := claim_opens claims
      have earlier := later _ (stale_putBack backSlot queued own)
      intro other member names
      rw [attempts] at member
      rcases List.mem_cons.mp member with rfl | old
      · simp only [AttemptHandle.names, Bool.and_eq_true,
          decide_eq_true_eq] at names
        exact (fresh (isToken ▸ names.2)).elim
      · exact earlier other old names

end ClaimedAgain

/-- As long as the other worker runs the job, nobody else ends its attempt or
touches the row, and what is closed stays closed. -/
structure WhileItRuns (setting : Setting) (handle second : AttemptHandle)
    (row : Job) : Prop where
  stale : Lasts setting (Stale handle)
  runs : Lasts setting (RunsAs second.id row.id)
  past : Lasts setting fun db => ¬RunsAs second.id row.id db
  there : Lasts setting fun db => db.row (keyOf row) = some row

/-- The attempt of the other worker is open and the row as it was. -/
def Untouched (second : AttemptHandle) (row : Job) (db : Db) : Prop :=
  RunsAs second.id row.id db ∧ db.row (keyOf row) = some row

/-- The worker leaves the other's attempt and the row alone exactly if its own
task ended in an exception that nobody catches, or the worker's row is gone. -/
theorem fence_respected_iff (setting : Setting) (ended : Ended) (held : Held)
    (handle second : AttemptHandle) (row : Job) (db : Db)
    (again : ClaimedAgain held handle second db)
    (found : db.row (keyOf held.row) = some row)
    (meanwhile : WhileItRuns setting handle second row) :
    Untouched second row (leaves (finishJob setting ended) ⟨db, held, 0⟩).db ↔
      (∃ exc, ended = .raised exc ∧ exc.isException = false) ∨
        setting.registered = false := by
  have isKey : keyOf row = keyOf held.row := (row_eq_some_iff.mp found).2
  have sameId : row.id = held.row.id := congrArg Prod.fst isKey
  have start : Stale handle db ∧ Untouched second row db :=
    ⟨again.stale, sameId ▸ again.runs, isKey ▸ found⟩
  have lasts : Lasts setting fun db =>
      Stale handle db ∧ Untouched second row db :=
    meanwhile.stale.and (meanwhile.runs.and meanwhile.there)
  have rejects : (∀ exc, ended = .raised exc → exc.isException = true) →
      Rejects (fun db => Stale handle db ∧ Untouched second row db) handle
        (keyOf held.row) held.row.version (settleTask setting ended)
        ⟨db, held, 0⟩ :=
    fun ordinary => settleTask_rejects lasts (fun _ both => both.1)
      (fun _ _ both => both) ordinary again.carries start
  by_cases aborted : ∃ exc, ended = .raised exc ∧ exc.isException = false
  · -- No handler runs, and no statement.
    obtain ⟨exc, rfl, fatal⟩ := aborted
    have stops : leaves (finishJob setting (.raised exc)) ⟨db, held, 0⟩ =
        ⟨db, held, 0⟩ := by
      apply Ends.leaves fun next => next = ⟨db, held, 0⟩
      simp [finishJob, releasing, settleTask, fatal]
    rw [stops]
    exact ⟨fun _ => .inl ⟨exc, rfl, fatal⟩, fun _ => start.2⟩
  · have ordinary : ∀ exc, ended = .raised exc → exc.isException = true := by
      intro exc isRaised
      by_contra fatal
      exact aborted ⟨exc, isRaised, by simpa using fatal⟩
    cases registered : setting.registered with
    | false =>
        have untouched : Untouched second row
            (leaves (finishJob setting ended) ⟨db, held, 0⟩).db := by
          apply Ends.leaves fun next => Untouched second row next.db
          unfold finishJob releasing
          rw [ends_catching, ends_bind]
          apply (rejects ordinary).ofRaises
          rintro exc next ⟨caught, holds, _⟩
          rw [if_pos caught]
          apply (releaseJob_unregistered lasts registered holds).ofRaises
          intro _ _ both
          exact both.2
        exact ⟨fun _ => .inr rfl, fun _ => untouched⟩
    | true =>
        have closed : ¬RunsAs second.id row.id
            (leaves (finishJob setting ended) ⟨db, held, 0⟩).db := by
          apply Ends.leaves fun next => ¬RunsAs second.id row.id next.db
          unfold finishJob releasing
          rw [ends_catching, ends_bind]
          apply (rejects ordinary).ofRaises
          rintro exc next ⟨caught, _, carries⟩
          rw [if_pos caught]
          have isJob : next.job.row.id = row.id :=
            (congrArg Prod.fst carries.key).trans sameId.symm
          apply (releaseJob_sweeps (fun attempts =>
            ¬∃ attempt ∈ attempts, attempt.id = second.id ∧
              attempt.runs row.id = true) meanwhile.past registered
              (fun _ _ _ past => not_runsAs_closeAttempts past)
              (fun _ _ => isJob ▸ not_runsAs_closeAll)).ofReturns
          intro _ _ past
          exact past
        constructor
        · intro untouched
          exact (closed untouched.1).elim
        · rintro (isAborted | gone)
          · exact (aborted isAborted).elim
          · cases gone

/-! ## A requeue in the middle of a run -/

def requeuedRow : Job where
  id := 1
  createdAt := 0
  taskPath := "app.tasks.slow"

def firstAttempt : Attempt where
  id := 1
  jobId := 1
  token := "a"
  claimedAt := 0

/-- The job as its first worker holds it. -/
def firstHeld : Held where
  row := overlayRunning requeuedRow (some firstAttempt)
  attempt := some (.ofAttempt firstAttempt)
  shown := true

def claimedOnce : Db where
  live := ⟨[requeuedRow], by decide⟩
  attempts := [firstAttempt]

/-- The second worker's claim, after the job was put back. -/
def secondClaim : Option Held × Db :=
  atomicClaimJob true none none 2 "b" { row := requeuedRow }
    (putBack 0 1 claimedOnce)

def secondHandle : AttemptHandle where
  id := 2
  token := "b"
  jobId := 1
  claimedAt := some 0
  workerPid := some 2

theorem claimedAgain_secondClaim :
    ClaimedAgain firstHeld (.ofAttempt firstAttempt) secondHandle
      secondClaim.2 := by
  have claims : atomicClaimJob true none none 2 "b" { row := requeuedRow }
      (id (putBack 0 firstHeld.row.id claimedOnce)) =
        (some (secondClaim.1.getD firstHeld), secondClaim.2) := rfl
  have queued : ((claimedOnce).live.get firstHeld.row.id).any (fun row =>
      row.status = .queued) = true := by decide
  have fresh : "b" ≠ (AttemptHandle.ofAttempt firstAttempt).token := by decide
  have own : ∀ attempt ∈ claimedOnce.attempts,
      (AttemptHandle.ofAttempt firstAttempt).names attempt = true →
        attempt.jobId = firstHeld.row.id := by
    intro attempt member _
    rw [List.mem_singleton.mp member]
    rfl
  have named : (secondClaim.1.getD firstHeld).attempt = some secondHandle := rfl
  have later : ∀ db, Stale (.ofAttempt firstAttempt) db →
      Stale (.ofAttempt firstAttempt) (id db) := fun _ stale => stale
  have same : keyOf (Held.row { row := requeuedRow }) = keyOf firstHeld.row :=
    rfl
  exact ClaimedAgain.intro rfl queued own later same fresh claims named

/-- The first worker's task returns, and the second worker's attempt is closed
and its job in history. -/
theorem fence_broken :
    ClaimedAgain firstHeld (.ofAttempt firstAttempt) secondHandle
        secondClaim.2 ∧
      secondClaim.2.row (keyOf firstHeld.row) = some requeuedRow ∧
      ¬Untouched secondHandle requeuedRow
        (leaves (finishJob {} (.returned .none))
          ⟨secondClaim.2, firstHeld, 0⟩).db := by
  refine ⟨claimedAgain_secondClaim, by decide, ?_⟩
  intro untouched
  have gone : (leaves (finishJob {} (.returned .none))
      ⟨secondClaim.2, firstHeld, 0⟩).db.row (keyOf requeuedRow) = none := by
    decide +kernel
  rw [untouched.2] at gone
  cases gone

theorem fence_respected_iff_returned :
    Untouched secondHandle requeuedRow
        (leaves (finishJob {} (.returned .none))
          ⟨secondClaim.2, firstHeld, 0⟩).db ↔
      (∃ exc, Ended.returned .none = .raised exc ∧ exc.isException = false) ∨
        (true = false) :=
  fence_respected_iff {} (.returned .none) firstHeld (.ofAttempt firstAttempt)
    secondHandle requeuedRow secondClaim.2 claimedAgain_secondClaim (by decide)
    { stale := fun _ _ stale => stale
      runs := fun _ _ runs => runs
      past := fun _ _ past => past
      there := fun _ _ there => there }

end Sqlery.Django.PoolWorker
