import Sqlery.Standalone.TransitionSpecs

/-!
# Specifications of the completions

A completion closes attempts first and owes their job a move, an update or an
entry; the transaction commits only when it has paid.
-/

namespace Sqlery.Standalone

open ReadCommitted
open Setting (stable_and stable_exists stable_fact stable_when)
open Script

/-! ## Reading a job -/

section Reads

variable {cfg : Config} {call : Call} {record : Record} {txn : Txn}

/-- The job something was found of. -/
def Found.jobId : Found → JobId
  | .live job => job.id
  | .finished row => row.id
  | .staged row => row.id

theorem overlayRunning_id (job : Job) (attempt : Option Attempt) :
    (overlayRunning job attempt).id = job.id := by
  cases attempt with
  | none => rfl
  | some attempt => rfl

theorem historyOf_id {db : Db} {job : JobId} {row : Job}
    (found : db.historyOf job = some row) : row.id = job := by
  simpa using List.find?_some found

theorem Inner.openAttemptIfQueued (job : Job) :
    Inner cfg call (openAttemptIfQueued job) := by
  unfold Standalone.openAttemptIfQueued
  split
  · exact Inner.openAttemptsIn _
  · exact Inner.pure none

/-- A row is looked up under its id. -/
theorem readRow_spec (job : JobId) (query : Db → Option Job)
    (answers : ∀ db row, query db = some row → row.id = job)
    {fails : Db → Loc → Prop} :
    (backend cfg).Spec call (At cfg call record txn)
      (read query : Sql (Option Job))
      (fun found db state => (∀ row, found = some row → row.id = job) ∧
        At cfg call record txn db state) fails := by
  refine ask_spec at_stable (fun _ => stable_and stable_fact at_stable) ?_
  intro db state _ _ holds
  exact ⟨fun row isRow => answers _ row isRow, holds⟩

theorem filteredLive_id {db : Db} {job : JobId} {keep : Job → Bool}
    {row : Job} (found : (db.live.get job).filter keep = some row) :
    row.id = job := by
  rw [Option.filter_eq_some_iff] at found
  exact Table.key_of_get found.1

/-- A live row of the job is read. -/
theorem readLive_spec (job : JobId) (query : Db → Option Job)
    (keep : Job → Bool)
    (answers : ∀ db row, query db = some row →
      (db.live.get job).filter keep = some row) {fails : Db → Loc → Prop} :
    (backend cfg).Spec call (Between cfg call record)
      (read query : Sql (Option Job))
      (fun found db state =>
        (∀ row, found = some row → row.id = job ∧ keep row = true) ∧
        Between cfg call (record.reading found.toList []) db state) fails := by
  have finds : ∀ db row, query db = some row →
      db.live.get job = some row ∧ keep row = true := fun db row isRow =>
    Option.filter_eq_some_iff.mp (answers db row isRow)
  refine reads_spec Option.toList (fun _ => []) ?_ ?_ ?_
  · intro db row member
    exact Table.mem_of_get (finds db row (Option.mem_toList.mp member)).1
  · intro _ _ member
    cases member
  · intro db row isRow
    exact ⟨Table.key_of_get (finds db row isRow).1, (finds db row isRow).2⟩

theorem openAttemptOf_of_some {db : Db} {job : JobId} {attempt : Attempt}
    (found : db.openAttemptOf job = some attempt) :
    attempt ∈ db.attempts.rows ∧ attempt.runs job = true := by
  have member := List.mem_of_getLast? found
  rw [byId, List.mem_insertionSort] at member
  exact List.mem_filter.mp member

/-- The open attempt of the job is read. -/
theorem openAttempts_spec (job : JobId) {fails : Db → Loc → Prop} :
    (backend cfg).Spec call (Between cfg call record) (openAttemptsIn job)
      (fun running db state =>
        (∀ attempt, running = some attempt → attempt.jobId = job) ∧
        Between cfg call (record.reading [] running.toList) db state)
      fails := by
  refine reads_spec (fun _ => []) Option.toList ?_ ?_ ?_
  · intro _ _ member
    cases member
  · intro db attempt member
    exact (openAttemptOf_of_some (Option.mem_toList.mp member)).1
  · intro db attempt found
    exact (runs_iff.mp (openAttemptOf_of_some found).2).1

/-- What was read of a job is a glimpse of it from then on. -/
theorem Recorded.glimpse {db : Db} {state : Loc} {job : JobId} {row : Job}
    {attempt : Option Attempt} (isJob : row.id = job)
    (isAttempt : ∀ found, attempt = some found → found.jobId = job)
    (seen : row ∈ record.rows)
    (read : ∀ found, attempt = some found → found ∈ record.attempts)
    (holds : Recorded call record db state) : Glimpse db job row attempt where
  id := isJob
  version := holds.rows row seen
  opened := fun found isFound =>
    ⟨isAttempt found isFound, holds.attempts found (read found isFound)⟩

/-- What is returned is about the job asked for. -/
def Answers (known : Db → Loc → Prop) (job : JobId) (found : Option Found)
    (db : Db) (state : Loc) : Prop :=
  (∀ answer, found = some answer → answer.jobId = job) ∧ known db state

theorem answers_stable {known : Db → Loc → Prop}
    (stable : (backend cfg).Stable known) (job : JobId)
    (found : Option Found) :
    (backend cfg).Stable (Answers known job found) :=
  stable_and stable_fact stable

/-- The look-up in the tables after the live one. -/
theorem lookUp_spec (job : JobId) (query : Db → Option Found)
    (answers : ∀ db found, query db = some found → found.jobId = job)
    {fails : Db → Loc → Prop} :
    (backend cfg).Spec call (At cfg call record txn)
      (read query : Sql (Option Found))
      (Answers (At cfg call record txn) job) fails := by
  refine ask_spec at_stable (answers_stable at_stable job) ?_
  intro db state _ _ holds
  exact ⟨fun found isFound => answers _ found isFound, holds⟩

theorem getJobById_spec (jobId : JobId) :
    (backend cfg).Spec call (Between cfg call record) (getJobById cfg jobId)
      (Answers (Between cfg call record) jobId)
      (Between cfg call record) := by
  have noted : ∀ found, (backend cfg).Stable
      (Answers (Between cfg call record) jobId found) :=
    answers_stable at_stable jobId
  refine .session ?_ noted recorded_stable noted at_stable
    (fun found _ _ _ holds => ⟨holds.1, holds.2.recorded.rolledBack⟩)
    fun _ _ _ holds => holds.rolledBack
  refine inside (readRow_spec jobId _ fun _ _ isRow =>
    Table.key_of_get isRow) fun found => .fact fun isJob => ?_
  cases found with
  | some job =>
      refine inside ((Inner.openAttemptIfQueued job).trans record)
        fun attempt => ?_
      refine .pure at_stable fun _ _ _ _ holds => ⟨?_, holds⟩
      intro answer isAnswer
      cases isAnswer
      exact (overlayRunning_id job attempt).trans (isJob job rfl)
  | none =>
      refine inside (readRow_spec jobId _ fun _ _ isRow =>
        historyOf_id isRow) fun finished => .fact fun isRow => ?_
      cases finished with
      | some row =>
          refine .pure at_stable fun _ _ _ _ holds => ⟨?_, holds⟩
          intro answer isAnswer
          cases isAnswer
          exact isRow row rfl
      | none =>
          dsimp only
          split
          · refine lookUp_spec jobId _ ?_
            intro db found isFound
            obtain ⟨row, isStaged, rfl⟩ := Option.map_eq_some_iff.mp isFound
            have keyed : row.id = jobId := Table.key_of_get isStaged
            exact keyed
          · exact .pure at_stable fun _ _ _ _ holds => ⟨by simp, holds⟩

theorem findJob_spec (jobId : JobId) :
    (backend cfg).Spec call (Between cfg call record) (findJob jobId)
      (Answers (Between cfg call record) jobId) (Recorded call record) := by
  unfold findJob
  refine inside (readRow_spec jobId _ fun _ _ isRow =>
    Table.key_of_get isRow) fun found => .fact fun isJob => ?_
  cases found with
  | some job =>
      refine .pure at_stable fun _ _ _ _ holds => ⟨?_, holds⟩
      intro answer isAnswer
      cases isAnswer
      exact isJob job rfl
  | none =>
      refine lookUp_spec jobId _ ?_
      intro db found isFound
      obtain ⟨row, isFinished, rfl⟩ := Option.map_eq_some_iff.mp isFound
      exact historyOf_id isFinished

end Reads

/-! ## Ending an attempt -/

section Ends

variable {cfg : Config} {call : Call} {record : Record} {txn : Txn}

/-- The writes of a transaction that has closed attempts. -/
def ending : Write → Bool
  | .closeAttempt _ _ _ _ => true
  | write => plain write

theorem ending_of_plain {write : Write} (isPlain : plain write = true) :
    ending write = true := by
  cases write <;> first | rfl | exact isPlain

theorem settling_of_ending {write : Write} (isEnding : ending write = true) :
    settling write = true := by
  cases write <;> first | rfl | exact isEnding

theorem updating_of_ending {write : Write} (isEnding : ending write = true) :
    updating write = true := by
  cases write <;> first | rfl | exact isEnding

/-- In a sweep, the job is one of those judged. -/
def Judged (call : Call) (record : Record) (job : JobId) : Prop :=
  call.sweeps = true → ∃ found,
    .remark (.judged job found) ∈ record.marks

/-- Nothing was closed, or something is owed to the job. -/
def Owes (stage : Stage) (sure : List Write) (job : JobId) : Prop :=
  stage = .clean ∨ (stage = .owing job ∧
    ∃ id now outcome, .closeAttempt id job now outcome ∈ sure)

theorem Owes.stage {stage : Stage} {sure : List Write} {job : JobId}
    (owes : Owes stage sure job) : stage = .clean ∨ stage = .owing job := by
  rcases owes with clean | owing
  · exact Or.inl clean
  · exact Or.inr owing.1

/-- Attempts of the job are closed; `count` says how many. -/
def JobEnded (cfg : Config) (call : Call) (record : Record) (job : JobId)
    (count : Nat) (stage : Stage) (sure : List Write) (db : Db)
    (state : Loc) : Prop :=
  (Owes stage sure job ∧ (0 < count → stage = .owing job)) ∧
    At cfg call record { kind := ending, stage, sure } db state

theorem jobEnded_stable (job : JobId) (count : Nat) :
    (backend cfg).Stable fun db state => ∃ stage sure,
      JobEnded cfg call record job count stage sure db state :=
  stable_exists fun _ => stable_exists fun _ =>
    stable_and stable_fact at_stable

/-- A close from a transaction that has closed nothing yet. -/
theorem closeEnding_spec (next : Stage) (admits : Attempt → Bool)
    (now : Time) (outcome : Outcome)
    (settles : ∀ db state attempt,
      At cfg call record { kind := ending } db state →
      admits attempt = true →
      Settled call next db state.pending attempt.jobId ∧
        (call.sweeps = true → ∃ found,
          .remark (.judged attempt.jobId found) ∈ state.noted)) :
    (backend cfg).Spec call (Between cfg call record)
      (closeWhere cfg admits now outcome)
      (fun count db state => ∃ closed : List Attempt,
        (count = closed.length ∧ ∀ attempt ∈ closed, admits attempt = true) ∧
        At cfg call record
          { kind := ending
            stage := if closed = [] then .clean else next
            sure := closed.map (closing now outcome) } db state)
      (Recorded call record) := by
  have closes : (backend cfg).Spec call
      (fun db state =>
        At cfg call record { kind := ending } db state ∧ True)
      (closeWhere cfg admits now outcome)
      (fun count db state => ∃ closed, Closed cfg call record
        { kind := ending } next admits now outcome (fun _ _ => True) count
        closed db state) (Recorded call record) := by
    refine closeWhere_spec next stable_fact (fun _ _ _ _ holds => holds)
      recorded_stable (fun _ => rfl) (fun _ => rfl) (Or.inl rfl) ?_
    intro db state attempt _ here _ isAdmitted _ _
    exact settles db state attempt here isAdmitted
  refine (closes.weaken ?_).strengthen ?_ fun _ _ _ holds => holds
  · intro db state _ holds
    exact ⟨holds.mono (fun _ => ending_of_plain) rfl rfl
      (fun _ member => member) fun _ member => member, trivial⟩
  · rintro count db state _ ⟨closed, isClosed, here, _⟩
    refine ⟨closed, isClosed, ?_⟩
    exact here.mono (fun _ isKind => isKind) rfl rfl (fun _ member => member)
      fun _ member => by cases member

theorem closeUnfenced_spec (job : JobId) (outcome : Outcome) (now : Time)
    (judged : Judged call record job) :
    (backend cfg).Spec call (Between cfg call record)
      (closeUnfencedStmt cfg job outcome now)
      (fun count db state => ∃ stage sure,
        JobEnded cfg call record job count stage sure db state)
      (Recorded call record) := by
  refine (closeEnding_spec (.owing job) _ now (unfencedOutcome outcome)
    ?_).strengthen ?_ fun _ _ _ holds => holds
  · intro db state attempt here isAdmitted
    have isJob : attempt.jobId = job := by simpa using isAdmitted
    rw [isJob]
    refine ⟨.owing rfl, fun sweeps => ?_⟩
    obtain ⟨found, marked⟩ := judged sweeps
    exact ⟨found, here.recorded.marked _ marked⟩
  · rintro count db state _ ⟨closed, ⟨isCount, areJobs⟩, here⟩
    refine ⟨_, _, ⟨?_, ?_⟩, here⟩
    · cases closed with
      | nil => exact Or.inl rfl
      | cons attempt rest =>
          have isJob : attempt.jobId = job := by
            simpa using areJobs attempt (by simp)
          refine Or.inr ⟨rfl, attempt.id, now, unfencedOutcome outcome, ?_⟩
          rw [← isJob]
          exact List.mem_cons_self
    · intro some
      cases closed with
      | nil => cases isCount ▸ some
      | cons attempt rest => rfl

theorem sweeps_of_completes {job : JobId}
    (completes : call.completes = some job) : call.sweeps = false := by
  cases call with
  | cleanupStaleJobs queue => cases completes
  | _ => rfl

/-- The attempt named by the handle is closed, whichever job it is of. -/
theorem closeExact_spec (job : JobId) (handle : AttemptHandle)
    (outcome : Outcome) (now : Time)
    (completes : call.completes = some job) :
    (backend cfg).Spec call (Between cfg call record)
      (closeExactStmt cfg handle outcome now)
      (fun count db state => ∃ closed : List Attempt,
        (count = closed.length ∧
          ∀ attempt ∈ closed, handle.names attempt = true) ∧
        At cfg call record
          { kind := ending
            stage := if closed = [] then .clean else .owing job
            sure := closed.map (closing now outcome) } db state)
      (Recorded call record) := by
  refine closeEnding_spec (.owing job) handle.names now outcome ?_
  intro db state attempt here _
  constructor
  · by_cases isJob : job = attempt.jobId
    · exact .owing (by rw [isJob])
    · exact .foreign job completes isJob
  · intro sweeps
    rw [sweeps_of_completes completes] at sweeps
    cases sweeps

/-- What a completion must know of its call before it closes an attempt. -/
structure MayEnd (call : Call) (record : Record) (job : JobId)
    (attempt : Option AttemptHandle) : Prop where
  completes : ∀ handle, attempt = some handle → call.completes = some job
  judged : attempt = none → Judged call record job

/-- An attempt of the job is closed, or the one the handle names. -/
def AttemptEnded (cfg : Config) (call : Call) (record : Record) (job : JobId)
    (attempt : Option AttemptHandle) (stage : Stage) (sure : List Write)
    (db : Db) (state : Loc) : Prop :=
  ((stage = .clean ∨ stage = .owing job) ∧
    (attempt = none → Owes stage sure job) ∧
    ∀ handle, attempt = some handle →
      ∃ owner now outcome, .closeAttempt handle.id owner now outcome ∈ sure) ∧
    At cfg call record { kind := ending, stage, sure } db state

theorem attemptEnded_stable (job : JobId) (attempt : Option AttemptHandle) :
    (backend cfg).Stable fun db state => ∃ stage sure,
      AttemptEnded cfg call record job attempt stage sure db state :=
  stable_exists fun _ => stable_exists fun _ =>
    stable_and stable_fact at_stable

theorem closeAttempt_spec (job : JobId) (attempt : Option AttemptHandle)
    (outcome : Outcome) (may : MayEnd call record job attempt) :
    (backend cfg).Spec call (Between cfg call record)
      (closeAttempt cfg job attempt outcome)
      (fun _ db state => ∃ stage sure,
        AttemptEnded cfg call record job attempt stage sure db state)
      (Recorded call record) := by
  unfold closeAttempt
  refine inside (Inner.currentTime.trans record) fun now => ?_
  cases attempt with
  | some handle =>
      refine inside (closeExact_spec job handle outcome now
        (may.completes handle rfl)) fun count => .exists_ fun closed =>
          .fact fun isClosed => ?_
      obtain ⟨isCount, named⟩ := isClosed
      by_cases single : count = 1
      · obtain ⟨ended, isEnded⟩ := List.length_eq_one_iff.mp
          (isCount.symm.trans single)
        have isHandle : ended.id = handle.id := by
          have names := named ended (by simp [isEnded])
          simp only [AttemptHandle.names, Bool.and_eq_true,
            decide_eq_true_eq] at names
          exact names.1
        have decided : decideClose count handle = .ok () := by
          simp [decideClose, single]
        simp only [decided]
        refine .pure at_stable fun _ _ _ _ holds => ⟨_, _, ⟨?_, ?_, ?_⟩, holds⟩
        · rw [isEnded]
          exact Or.inr rfl
        · intro isNone
          cases isNone
        · intro presented isPresented
          cases isPresented
          refine ⟨ended.jobId, now, outcome, ?_⟩
          rw [isEnded, ← isHandle]
          exact List.mem_singleton_self _
      · simp only [decideClose, single, ne_eq, not_false_eq_true, if_true]
        exact raise_spec
  | none =>
      refine inside (closeUnfenced_spec job outcome now (may.judged rfl))
        fun count => ?_
      refine .pure (jobEnded_stable job count) ?_
      rintro db state _ _ ⟨stage, sure, ⟨owes, _⟩, here⟩
      exact ⟨stage, sure, ⟨owes.stage, fun _ => owes, fun _ isSome => by
        cases isSome⟩, here⟩

end Ends

/-! ## Updating a row in place -/

section Update

variable {cfg : Config} {call : Call} {record : Record} {txn : Txn}
variable {db : Db} {state : Loc}

/-- A transaction that has updated rows and owes nothing. -/
abbrev updatedTxn : Txn := { kind := updating }

theorem SameJob.trans {first second third : Job} (left : SameJob first second)
    (right : SameJob second third) : SameJob first third :=
  ⟨right.id.trans left.id, right.createdAt.trans left.createdAt,
    right.spec.trans left.spec⟩

/-- A row the session sees is a version of the committed row. -/
theorem sameJob_of_view (here : At cfg call record txn db state)
    (fits : ∀ write, txn.kind write = true → updating write = true)
    {job : JobId} {row : Job}
    (found : (after state.pending db).live.get job = some row) :
    ∃ live, db.live.get job = some live ∧ SameJob live row := by
  rcases live_after_cases found with ⟨new, inserted, _⟩ |
    ⟨old, isOld, rfl | updated⟩
  · cases fits _ (here.only _ inserted)
  · exact ⟨row, isOld, rfl, rfl, rfl⟩
  · obtain ⟨⟨live, isLive, same⟩, _⟩ := here.lawful.updated row updated
    have keyed : row.id = job := Table.key_of_get found
    exact ⟨live, keyed ▸ isLive, same⟩

theorem update_additions {stage : Stage} {rows : List Job}
    {set : Job → Job} {locks : List Lock}
    (here : At cfg call record txn db state)
    (lives : ∀ row ∈ rows, ∃ live, db.live.get row.id = some live ∧
      SameJob live row)
    (same : ∀ row, SameJob row (set row))
    (status : ∀ row ∈ rows, (set row).status ≠ .success ∧
      ((set row).status = .queued → call.requeues = true))
    (judged : ∀ row ∈ rows, Judged call record row.id) :
    Additions cfg.dialect call stage db state
      (rows.map fun row => .setLive (set row)) locks := by
  have never : ∀ write, (∀ row, write ≠ .setLive row) →
      write ∉ rows.map fun row => Write.setLive (set row) := by
    intro write different member
    obtain ⟨row, _, rfl⟩ := List.mem_map.mp member
    exact different _ rfl
  apply rewriting_additions here.lawful
  case rewrite =>
    intro write member
    obtain ⟨row, _, rfl⟩ := List.mem_map.mp member
    rfl
  case updated =>
    intro new member
    obtain ⟨row, isRow, isSet⟩ := List.mem_map.mp member
    cases isSet
    obtain ⟨live, isLive, isSame⟩ := lives row isRow
    rw [(same row).id]
    exact ⟨⟨live, isLive, isSame.trans (same row)⟩, status row isRow⟩
  case judged =>
    intro sweeps new member
    obtain ⟨row, isRow, isSet⟩ := List.mem_map.mp member
    cases isSet
    rw [(same row).id]
    obtain ⟨attempt, marked⟩ := judged row isRow sweeps
    exact ⟨attempt, here.recorded.marked _ marked⟩
  case movedOnce =>
    exact fun _ _ member => (never _ (fun _ => by simp) member).elim
  all_goals exact fun _ member => (never _ (fun _ => by simp) member).elim

/-- What an update leaves: nothing was found, or the job owes nothing. -/
def Updated (cfg : Config) (call : Call) (record : Record) (txn : Txn)
    (count : Nat) (db : Db) (state : Loc) : Prop :=
  (count = 0 → At cfg call record { txn with kind := updating } db state) ∧
    (count ≠ 0 → At cfg call record updatedTxn db state)

theorem updated_stable (count : Nat) :
    (backend cfg).Stable (Updated cfg call record txn count) :=
  stable_and (stable_when at_stable) (stable_when at_stable)

theorem updateLive_spec (job : JobId) {admits : Db → Job → Bool}
    {set : Job → Job} {fails : Db → Loc → Prop}
    (stableFails : (backend cfg).Stable fails)
    (fits : ∀ write, txn.kind write = true → updating write = true)
    (made : txn.made = [])
    (isJob : ∀ db row, admits db row = true → row.id = job)
    (same : ∀ row, SameJob row (set row))
    (status : ∀ db row, admits db row = true → (set row).status ≠ .success ∧
      ((set row).status = .queued → call.requeues = true))
    (owes : txn.stage = .clean ∨ (txn.stage = .owing job ∧
      ∀ row, (set row).status ≠ .queued))
    (judged : Judged call record job) :
    (backend cfg).Spec call (At cfg call record txn)
      (updateLive cfg admits set) (Updated cfg call record txn) fails := by
  refine .bind stableFails (.exec at_stable
    (fun rows => updated_stable rows.length) ?_) fun rows =>
      .pure (updated_stable rows.length) fun _ _ _ _ holds => holds
  intro snapshot current state others effect _ _ _ _ _ here ran
  cases ran
  set rows := targets Db.live admits
    (basis cfg.dialect ((backend cfg).sys.view snapshot state)
      ((backend cfg).sys.view current state))
    ((backend cfg).sys.view current state) with isRows
  have lives : ∀ row ∈ rows, ∃ live, current.live.get row.id = some live ∧
      SameJob live row := by
    intro row member
    exact sameJob_of_view here fits (mem_targets_iff.mp member).1
  have statuses : ∀ row ∈ rows, (set row).status ≠ .success ∧
      ((set row).status = .queued → call.requeues = true) :=
    fun row member => status _ row (mem_targets_iff.mp member).2.1
  have areJudged : ∀ row ∈ rows, Judged call record row.id := by
    intro row member
    rw [isJob _ row (mem_targets_iff.mp member).2.1]
    exact judged
  have only : ∀ write ∈ rows.map (fun row => Write.setLive (set row)),
      updating write = true := by
    intro write member
    obtain ⟨row, _, rfl⟩ := List.mem_map.mp member
    rfl
  have nothing : (rows.map fun row => Write.setLive (set row)).filter
      creation = [] := by
    rw [List.filter_eq_nil_iff]
    intro write member
    obtain ⟨row, _, rfl⟩ := List.mem_map.mp member
    simp [creation]
  have keeps : ∀ other, ∀ write ∈ rows.map
      (fun row => Write.setLive (set row)), ¬Drops other write := by
    intro other write member drops
    obtain ⟨row, _, rfl⟩ := List.mem_map.mp member
    cases drops
  refine ⟨by simp [backend], ?_, ?_⟩
  · intro _
    refine here.extend ?_ fits only ?_ (fun _ member => Or.inl member)
      fun _ member => Or.inl member
    · exact here.lawful.extendSame
        (update_additions here lives same statuses areJudged)
        fun other _ => keeps other
    · exact (congrArg (txn.made ++ ·) nothing).trans (List.append_nil _)
  · intro some
    obtain ⟨row, isRow⟩ : ∃ row, row ∈ rows := by
      apply List.exists_mem_of_ne_nil
      intro none
      exact some (congrArg List.length none)
    have isRowJob : row.id = job := by
      exact isJob _ row (mem_targets_iff.mp isRow).2.1
    refine here.extend ?_ fits only ?_ (fun _ member => by cases member)
      fun _ member => by cases member
    · refine here.lawful.extend
        (update_additions here lives same statuses areJudged) ?_ ?_ ?_
      · intro other settled
        rcases owes with clean | ⟨owing, notQueued⟩
        · exact (settled.shift (Or.inl clean)).mono
            (fun write member => List.mem_append_left _ member)
            fun filed => filed.append (keeps other)
        · cases settled with
          | owing isOwing =>
              cases owing.symm.trans isOwing
              refine .leaves (set row) (List.mem_append_right _ ?_)
                ((same row).id.trans isRowJob) (notQueued row)
              exact List.mem_map_of_mem isRow
          | moving isMoving => cases owing.symm.trans isMoving
          | filed isFiled _ _ => cases owing.symm.trans isFiled
          | moves deleted => exact .moves (List.mem_append_left _ deleted)
          | leaves kept member isKept stays =>
              exact .leaves kept (List.mem_append_left _ member) isKept stays
          | gone absent => exact .gone absent
          | foreign target completes different =>
              exact .foreign target completes different
      · intro other isMoving
        rcases owes with clean | ⟨owing, _⟩
        · cases clean.symm.trans isMoving
        · cases owing.symm.trans isMoving
      · intro other isFiled
        rcases owes with clean | ⟨owing, _⟩
        · cases clean.symm.trans isFiled
        · cases owing.symm.trans isFiled
    · exact (congrArg (txn.made ++ ·) nothing).trans
        ((List.append_nil _).trans made)

end Update

/-! ## Fenced completions -/

section Complete

variable {cfg : Config} {call : Call} {record : Record}

/-- The transaction may commit. -/
def Done (cfg : Config) (call : Call) (record : Record) (db : Db)
    (state : Loc) : Prop :=
  ∃ txn : Txn, (txn.stage.complete = true ∧ txn.made = [] ∧
      ∀ write, plain write = true → txn.kind write = true) ∧
    At cfg call record txn db state

theorem done_stable : (backend cfg).Stable (Done cfg call record) :=
  stable_exists fun _ => stable_and stable_fact at_stable

theorem commit_done {fails : Db → Loc → Prop} :
    (backend cfg).Spec call (Done cfg call record) (commit : Sql Unit)
      (fun _ => Between cfg call record) fails :=
  .exists_ fun _ => .fact fun isDone => commit_spec isDone.1 isDone.2.1

theorem At.doneSettled {db : Db} {state : Loc}
    (holds : At cfg call record settledTxn db state) :
    Done cfg call record db state :=
  ⟨settledTxn, ⟨rfl, rfl, fun _ => settling_of_plain⟩, holds⟩

theorem At.doneUpdated {db : Db} {state : Loc}
    (holds : At cfg call record updatedTxn db state) :
    Done cfg call record db state :=
  ⟨updatedTxn, ⟨rfl, rfl, fun _ => updating_of_plain⟩, holds⟩

theorem Done.recorded {db : Db} {state : Loc}
    (holds : Done cfg call record db state) :
    Recorded call record db state := by
  obtain ⟨_, _, here⟩ := holds
  exact here.recorded

/-- The completion is recorded and may commit, or it is given up. -/
def Outcomes (cfg : Config) (call : Call) (record : Record) (applied : Bool)
    (db : Db) (state : Loc) : Prop :=
  if applied then Done cfg call record db state
  else Recorded call record db state

/-- What a completion must know before it records a success. -/
def MaySucceed (call : Call) (job : JobId) (status : Status)
    (attempt : Option AttemptHandle) : Prop :=
  status = .success → call.succeedsUnfenced = true ∨
    ∃ output version handle, attempt = some handle ∧
      call = .markJobSuccess job output version (some handle)

theorem movable_ended {job : JobId} (attempt : Option AttemptHandle)
    {stage : Stage} {sure : List Write} {fence : MoveFence} {status : Status}
    {values : Values} (isJob : fence.jobId = job)
    (owes : stage = .clean ∨ stage = .owing job)
    (closed : ∀ handle, attempt = some handle →
      ∃ owner now outcome, .closeAttempt handle.id owner now outcome ∈ sure)
    (terminal : isTerminal status = true)
    (finishes : ∀ db state, Recorded call record db state →
      Finishes call db job status values)
    (may : MaySucceed call job status attempt)
    (judged : Judged call record job) :
    Movable call record fence status values
      { kind := ending, stage, sure } where
  fits := fun _ => settling_of_ending
  stage := isJob ▸ owes
  made := rfl
  terminal := terminal
  finishes := isJob ▸ finishes
  succeeds := by
    intro isSuccess
    rcases may isSuccess with unfenced |
      ⟨output, version, handle, isAttempt, isCall⟩
    · exact Or.inr (Or.inl unfenced)
    · obtain ⟨owner, now, outcome, isClosed⟩ := closed handle isAttempt
      exact Or.inr (Or.inr ⟨output, version, handle, owner, now, outcome,
        isJob ▸ isCall, isClosed⟩)
  closes := Or.inl (isJob ▸ judged)

theorem judged_of_mayEnd {job : JobId} {attempt : Option AttemptHandle}
    (may : MayEnd call record job attempt) : Judged call record job := by
  cases attempt with
  | none => exact may.judged rfl
  | some handle =>
      intro sweeps
      rw [sweeps_of_completes (may.completes handle rfl)] at sweeps
      cases sweeps

theorem recordOutcome_spec {job : JobId} {attempt : Option AttemptHandle}
    {expectedVersion : Option Nat} {status : Status} {values : Values}
    (may : MayEnd call record job attempt)
    (terminal : isTerminal status = true)
    (finishes : ∀ db state, Recorded call record db state →
      Finishes call db job status values)
    (succeed : MaySucceed call job status attempt) :
    (backend cfg).Spec call
      (fun db state => ∃ stage sure,
        AttemptEnded cfg call record job attempt stage sure db state)
      (recordOutcome cfg job expectedVersion status values)
      (Outcomes cfg call record) (Recorded call record) := by
  refine .exists_ fun stage => .exists_ fun sure => .fact fun isEnded => ?_
  obtain ⟨owes, _, closed⟩ := isEnded
  unfold recordOutcome
  split
  · rename_i retrying
    have isFailed : status = .failed := by
      simp only [Bool.and_eq_true, decide_eq_true_eq] at retrying
      exact retrying.1
    refine inside (updateLive_spec job recorded_stable
      (fun _ => updating_of_ending) rfl ?_ (fun row => ⟨rfl, rfl, rfl⟩)
      (fun _ row _ => by simp [isFailed])
      (owes.imp id fun owing => ⟨owing, fun row => by simp [isFailed]⟩)
      (judged_of_mayEnd may)) fun count => ?_
    · intro db row isAdmitted
      simp only [Bool.and_eq_true, decide_eq_true_eq] at isAdmitted
      exact isAdmitted.1
    · refine .pure (updated_stable count) fun db state _ _ holds => ?_
      by_cases none : count = 0
      · simp only [Outcomes, none]
        exact (holds.1 none).recorded
      · have some : 0 < count := Nat.pos_of_ne_zero none
        simp only [Outcomes, some]
        exact At.doneUpdated (holds.2 none)
  · refine (finishIn_spec (movable_ended attempt rfl owes closed terminal
      finishes succeed (judged_of_mayEnd may))).strengthen ?_
      fun _ _ _ holds => holds
    intro moved db state _ holds
    cases moved with
    | true => exact At.doneSettled holds
    | false => exact At.recorded holds

theorem fencedUpdate_spec {job : JobId} {attempt : Option AttemptHandle}
    {expectedVersion : Option Nat} {status : Status} {values : Values}
    {outcome : Outcome} {parent : Option JobId}
    (may : MayEnd call record job attempt)
    (terminal : isTerminal status = true)
    (finishes : ∀ db state, Recorded call record db state →
      Finishes call db job status values)
    (succeed : MaySucceed call job status attempt) :
    (backend cfg).Spec call (Between cfg call record)
      (fencedUpdate cfg job expectedVersion status values attempt outcome
        parent)
      (Answers (Between cfg call record) job) (Recorded call record) := by
  unfold fencedUpdate
  refine inside (closeAttempt_spec job attempt outcome may) fun _ => ?_
  refine inside (recordOutcome_spec may terminal finishes succeed)
    fun applied => ?_
  cases applied with
  | true =>
      refine inside commit_done fun _ => ?_
      refine inside ((Outer.whenever
        (Outer.releaseDependentsQuietly job parent)).trans record) fun _ => ?_
      exact findJob_spec job
  | false =>
      refine inside (rollback_spec recorded_stable fun _ _ holds => holds)
        fun _ => ?_
      cases expectedVersion with
      | some version => exact raise_spec
      | none => exact .pure at_stable fun _ _ _ _ holds => ⟨by simp, holds⟩

theorem alreadyFinished_spec {row : Job} {expectedVersion : Option Nat}
    {attempt : Option AttemptHandle} :
    (backend cfg).Spec call (Between cfg call record)
      (alreadyFinished row expectedVersion attempt)
      (Answers (Between cfg call record) row.id)
      (Between cfg call record) := by
  unfold alreadyFinished
  split
  · exact .raise at_stable fun _ _ _ holds => holds
  · refine .pure at_stable fun _ _ _ _ holds => ⟨?_, holds⟩
    intro answer isAnswer
    cases isAnswer
    rfl

theorem session_answers {job : JobId} {pre : Db → Loc → Prop}
    {body : Sql (Option Found)}
    (spec : (backend cfg).Spec call pre body
      (Answers (Between cfg call record) job) (Recorded call record)) :
    (backend cfg).Spec call pre (session body)
      (Answers (Between cfg call record) job) (Between cfg call record) :=
  .session spec (answers_stable at_stable job) recorded_stable
    (answers_stable at_stable job) at_stable
    (fun _ _ _ _ holds => ⟨holds.1, holds.2.recorded.rolledBack⟩)
    fun _ _ _ holds => holds.rolledBack

theorem markJob_spec {jobId : JobId} {attempt : Option AttemptHandle}
    {expectedVersion : Option Nat} {outcome : Outcome}
    {mark : Job → Time → Job} {values : Job → Values}
    (may : MayEnd call record jobId attempt)
    (terminal : ∀ job now, isTerminal (mark job now).status = true)
    (finishes : ∀ db row running now, Glimpse db jobId row running →
      Finishes call db jobId (mark (overlayRunning row running) now).status
        ((values (mark (overlayRunning row running) now)).withAttempt running))
    (succeed : ∀ job now,
      MaySucceed call jobId (mark job now).status attempt) :
    (backend cfg).Spec call (Between cfg call record)
      (markJob cfg jobId expectedVersion attempt outcome mark values)
      (Answers (Between cfg call record) jobId)
      (Between cfg call record) := by
  unfold markJob
  refine .bind at_stable (getJobById_spec jobId) fun found =>
    .fact fun isFound => ?_
  cases found with
  | none => exact .pure at_stable fun _ _ _ _ holds => ⟨by simp, holds⟩
  | some found =>
      have isJob : found.jobId = jobId := isFound found rfl
      cases found with
      | finished row => exact isJob ▸ alreadyFinished_spec
      | staged row =>
          refine .pure at_stable fun _ _ _ _ holds => ⟨?_, holds⟩
          intro answer isAnswer
          cases isAnswer
          exact isJob
      | live job =>
          refine session_answers (inside (readLive_spec jobId _
            (fun _ => true) fun _ _ isRow => by simpa using isRow)
            fun current => .fact fun isRow => ?_)
          cases current with
          | none =>
              refine .pure at_stable fun _ _ _ _ holds => ⟨?_, holds.forget⟩
              intro answer isAnswer
              cases isAnswer
              exact isJob
          | some row =>
              refine inside (openAttempts_spec jobId) fun running =>
                .fact fun isAttempt => ?_
              -- What is read below is forgotten at the end.
              let read := (record.reading [row] []).reading [] running.toList
              have mayStill : MayEnd call read jobId attempt :=
                ⟨may.completes, may.judged⟩
              have glimpse : ∀ db state, Recorded call read db state →
                  Glimpse db jobId row running := by
                intro db state holds
                apply holds.glimpse (isRow row rfl).1 isAttempt
                · simp [read, Record.reading]
                · intro found isFound
                  simp [read, Record.reading, isFound]
              refine .bind recorded_stable (clock_spec at_stable)
                fun now => ?_
              exact (fencedUpdate_spec mayStill (terminal _ _)
                (fun db state holds =>
                  finishes db row running now (glimpse db state holds))
                (succeed _ _)).strengthen
                (fun _ _ _ _ holds => ⟨holds.1, holds.2.forget.forget⟩)
                fun _ _ _ holds => holds.forget.forget

theorem markJobFailed_spec {jobId : JobId} {error traceback : String}
    {expectedVersion : Option Nat} {reason : String}
    {attempt : Option AttemptHandle}
    (may : MayEnd call record jobId attempt)
    (failure : Failure call jobId error traceback reason) :
    (backend cfg).Spec call (Between cfg call record)
      (markJobFailed cfg jobId error traceback expectedVersion reason attempt)
      (Answers (Between cfg call record) jobId)
      (Between cfg call record) := by
  refine markJob_spec may (fun _ _ => rfl) ?_ ?_
  · intro db row running now glimpse
    exact .fails error traceback reason row running now failure glimpse
  · intro job now isSuccess
    cases isSuccess

theorem markJobSuccess_spec {jobId : JobId} {output : String}
    {expectedVersion : Option Nat} {attempt : Option AttemptHandle}
    (isCall : call = .markJobSuccess jobId output expectedVersion attempt) :
    (backend cfg).Spec call (Between cfg call record)
      (markJobSuccess cfg jobId output expectedVersion attempt)
      (Answers (Between cfg call record) jobId)
      (Between cfg call record) := by
  subst isCall
  refine markJob_spec ⟨?_, ?_⟩ (fun _ _ => rfl) ?_ ?_
  · intro handle isAttempt
    subst isAttempt
    rfl
  · intro _ sweeps
    cases sweeps
  · intro db row running now glimpse
    exact .succeeds output expectedVersion attempt row running now rfl glimpse
  · intro job now _
    cases attempt with
    | none => exact Or.inl rfl
    | some handle =>
        exact Or.inr ⟨output, expectedVersion, handle, rfl, rfl⟩

end Complete

end Sqlery.Standalone
