import Sqlery.Standalone.Retries

/-!
# Result handles

`AsyncResult` of `core.result` follows a job's retries and reports the state of
the newest attempt.  A report that a job is done is final when the reported
attempt is in history; while a failed attempt is still live its retry is owed,
and the report of its failure is taken back when the retry is created.
-/

namespace Sqlery.Standalone

open ReadCommitted

/-! ## The report -/

inductive ResultState where
  | pending
  | started
  | success
  | failure
  | revoked
  | retry
  deriving DecidableEq, Repr

/-- `_STATE_MAP`. -/
def stateMap : Status → ResultState
  | .queued => .pending
  | .running => .started
  | .shuttingDown => .started
  | .success => .success
  | .failed => .failure
  | .archived => .retry

/-- `_REVOKED_ERRORS`. -/
def revokedErrors : List String := ["Cancelled by user", "Revoked by user"]

/-- `_READY_STATES`. -/
def ResultState.ready (state : ResultState) : Bool :=
  state = .success || state = .failure || state = .revoked

/-- `_MAX_RETRY_HOPS`. -/
def maxRetryHops : Nat := 1000

/-- What the handle reports on. -/
inductive Reported where
  | job (row : Job)
  | staged (row : Staged)
  deriving DecidableEq, Repr

/-- A failed or archived attempt may have a retry. -/
def superseded (row : Job) : Bool :=
  row.status = .archived || row.status = .failed

/-- The loop of `_job`. -/
def newestAttempt : Nat → Job → Sql Job
  | 0, row => pure row
  | hops + 1, row =>
      if superseded row then do
        match ← getLatestRetry row.id with
        | some child => newestAttempt hops child
        | none => pure row
      else pure row

/-- `_job`. -/
def resultJob (cfg : Config) (jobId : JobId) : Sql (Option Reported) := do
  match ← getJobById cfg jobId with
  | some (.live job) => do
      let newest ← newestAttempt maxRetryHops job
      pure (some (.job newest))
  | some (.finished row) => do
      let newest ← newestAttempt maxRetryHops row
      pure (some (.job newest))
  | some (.staged row) => pure (some (.staged row))
  | none => pure none

/-- The state of what `_job` returned. -/
def stateOf : Option Reported → ResultState
  | some (.job row) =>
      if row.status = .failed && row.error ∈ revokedErrors then .revoked
      else stateMap row.status
  | some (.staged _) => .pending
  | none => .pending

/-- `state`. -/
def resultState (cfg : Config) (jobId : JobId) : Sql ResultState := do
  let found ← resultJob cfg jobId
  pure (stateOf found)

/-! ## The report on the data of one moment -/

/-- The row a job id is found under, as the view shows it. -/
def Db.seen (db : Db) (job : JobId) : Option Job :=
  match db.live.get job with
  | some row => some (db.shown row)
  | none => db.historyOf job

def Db.newestAttempt (db : Db) : Nat → Job → Job
  | 0, row => row
  | hops + 1, row =>
      if superseded row then
        match db.latestRetry row.id with
        | some child => db.newestAttempt hops child
        | none => row
      else row

def Db.resultJob (cfg : Config) (db : Db) (job : JobId) : Option Reported :=
  match db.seen job with
  | some row => some (.job (db.newestAttempt maxRetryHops row))
  | none =>
      if cfg.partitionedPg then (db.staged.get job).map .staged else none

def Db.resultState (cfg : Config) (db : Db) (job : JobId) : ResultState :=
  stateOf (db.resultJob cfg job)

theorem answer_getLatestRetry (db : Db) (job : JobId) :
    Script.answer db (getLatestRetry job) =
      some (.ok (db.latestRetry job)) := by
  simp [getLatestRetry]

theorem answer_newestAttempt (db : Db) (hops : Nat) (row : Job) :
    Script.answer db (newestAttempt hops row) =
      some (.ok (db.newestAttempt hops row)) := by
  induction hops generalizing row with
  | zero => rfl
  | succ hops ih =>
      unfold newestAttempt Db.newestAttempt
      split
      · rw [Script.answer_bind _ (answer_getLatestRetry db row.id)]
        cases db.latestRetry row.id with
        | none => rfl
        | some child => exact ih child
      · rfl

/-- What `get_job_by_id` finds. -/
def Db.jobById (cfg : Config) (db : Db) (job : JobId) : Option Found :=
  match db.live.get job with
  | some row => some (.live (db.shown row))
  | none =>
      match db.historyOf job with
      | some row => some (.finished row)
      | none =>
          if cfg.partitionedPg then (db.staged.get job).map .staged else none

theorem answer_getJobById (cfg : Config) (db : Db) (job : JobId) :
    Script.answer db (getJobById cfg job) =
      some (.ok (db.jobById cfg job)) := by
  unfold getJobById Db.jobById
  rw [Script.answer_session, Script.answer_bind _ (Script.answer_read db _)]
  cases db.live.get job with
  | some row =>
      unfold openAttemptIfQueued Db.shown
      dsimp only
      split <;> rfl
  | none =>
      dsimp only
      rw [Script.answer_bind _ (Script.answer_read db _)]
      cases db.historyOf job with
      | some row => rfl
      | none =>
          dsimp only
          split <;> rfl

theorem answer_resultJob (cfg : Config) (db : Db) (job : JobId) :
    Script.answer db (resultJob cfg job) =
      some (.ok (db.resultJob cfg job)) := by
  have goesOn : ∀ row, Script.answer db (do
      let newest ← newestAttempt maxRetryHops row
      pure (some (Reported.job newest))) =
      some (.ok (some (.job (db.newestAttempt maxRetryHops row)))) := by
    intro row
    rw [Script.answer_bind _ (answer_newestAttempt db maxRetryHops row)]
    rfl
  rw [resultJob, Script.answer_bind _ (answer_getJobById cfg db job)]
  unfold Db.resultJob Db.seen Db.jobById
  cases db.live.get job with
  | some row => exact goesOn _
  | none =>
      dsimp only
      cases db.historyOf job with
      | some row => exact goesOn _
      | none =>
          cases cfg.partitionedPg with
          | true => cases db.staged.get job <;> rfl
          | false => rfl

/-- The handle's state is a function of the committed data. -/
theorem answer_resultState (cfg : Config) (db : Db) (job : JobId) :
    Script.answer db (resultState cfg job) =
      some (.ok (db.resultState cfg job)) := by
  rw [resultState, Script.answer_bind _ (answer_resultJob cfg db job)]
  rfl

theorem status_of_ready {row : Job}
    (ready : (stateOf (some (.job row))).ready = true) :
    row.status = .success ∨ row.status = .failed := by
  cases status : row.status with
  | success => exact Or.inl rfl
  | failed => exact Or.inr rfl
  | _ => simp [stateOf, stateMap, ResultState.ready, status] at ready

theorem stateOf_success {row : Job} (success : row.status = .success) :
    stateOf (some (.job row)) = .success := by
  simp [stateOf, success, stateMap]

/-! ## Stored rows -/

/-- The second job is a retry of the first. -/
def IsRetry (parent job : JobId) (db : Db) : Prop :=
  ∃ row ∈ db.stored, row.id = job ∧ row.parentJobId = some parent

theorem hasRetry_iff {parent : JobId} {db : Db} :
    HasRetry parent db ↔ ∃ job, IsRetry parent job db := by
  constructor
  · intro hasRetry
    rcases hasRetry with ⟨row, member, isChild⟩ | ⟨row, member, isChild⟩
    · exact ⟨row.id, row, List.mem_append_left _ member, rfl, isChild⟩
    · exact ⟨row.id, row, List.mem_append_right _ member, rfl, isChild⟩
  · intro isRetry
    obtain ⟨job, row, member, _, isChild⟩ := isRetry
    exact (List.mem_append.mp member).imp (fun live => ⟨row, live, isChild⟩)
      fun finished => ⟨row, finished, isChild⟩

theorem mem_jobAll {row : Job} {db : Db} :
    row ∈ db.jobAll ↔
      (∃ live ∈ db.live.rows, db.shown live = row) ∨
        row ∈ db.history.rows := by
  simp [Db.jobAll]

theorem id_shown (db : Db) (row : Job) : (db.shown row).id = row.id := by
  unfold Db.shown
  split
  · unfold overlayRunning
    split <;> rfl
  · rfl

/-- Only a queued row is shown otherwise than it is stored. -/
theorem shown_superseded {db : Db} {row : Job}
    (isSuperseded : superseded row = true) : db.shown row = row := by
  unfold Db.shown
  rw [if_neg]
  intro queued
  simp [superseded, queued] at isSuperseded

theorem superseded_shown {db : Db} {row : Job}
    (isSuperseded : superseded (db.shown row) = true) :
    superseded row = true := by
  by_cases queued : row.status = .queued
  · unfold Db.shown overlayRunning at isSuperseded
    rw [if_pos queued] at isSuperseded
    split at isSuperseded
    · simp [superseded, queued] at isSuperseded
    · simp [superseded] at isSuperseded
  · unfold Db.shown at isSuperseded
    rwa [if_neg queued] at isSuperseded

theorem historyOf_of_mem {db : Db} (inv : Inv db) {row : Job}
    (member : row ∈ db.history.rows) : db.historyOf row.id = some row := by
  cases found : db.historyOf row.id with
  | none =>
      have absent := List.find?_eq_none.mp found row member
      simp at absent
  | some other =>
      have sameId : other.id = row.id := by
        simpa using List.find?_some found
      rw [inv.once other (List.mem_of_find?_eq_some found) row member sameId]

/-- The view lists a row under the id it is found by. -/
theorem seen_of_mem {db : Db} (inv : Inv db) {row : Job}
    (member : row ∈ db.jobAll) : db.seen row.id = some row := by
  unfold Db.seen
  rcases mem_jobAll.mp member with ⟨live, isLive, rfl⟩ | finished
  · rw [id_shown, Table.get_of_mem isLive]
  · rw [inv.apart row finished]
    exact historyOf_of_mem inv finished

theorem mem_of_seen {db : Db} {job : JobId} {row : Job}
    (found : db.seen job = some row) : row ∈ db.jobAll ∧ row.id = job := by
  unfold Db.seen at found
  split at found
  · rename_i live isLive
    cases found
    refine ⟨mem_jobAll.mpr (Or.inl ⟨live, Table.mem_of_get isLive, rfl⟩), ?_⟩
    rw [id_shown]
    exact Table.key_of_get isLive
  · refine ⟨mem_jobAll.mpr (Or.inr (List.mem_of_find?_eq_some found)), ?_⟩
    simpa using List.find?_some found

theorem seen_history {db : Db} (inv : Inv db) {row : Job}
    (member : row ∈ db.history.rows) : db.seen row.id = some row :=
  seen_of_mem inv (mem_jobAll.mpr (Or.inr member))

theorem seen_superseded {db : Db} (inv : Inv db) {row : Job}
    (member : row ∈ db.stored) (isSuperseded : superseded row = true) :
    db.seen row.id = some row := by
  rcases List.mem_append.mp member with live | finished
  · have shown : db.shown row = row := shown_superseded isSuperseded
    apply seen_of_mem inv
    exact mem_jobAll.mpr (Or.inl ⟨row, live, shown⟩)
  · exact seen_history inv finished

theorem latestRetry_mem {db : Db} {job : JobId} {child : Job}
    (found : db.latestRetry job = some child) :
    child ∈ db.jobAll ∧ child.parentJobId = some job := by
  have first := List.mem_of_head? found
  have listed := (List.perm_insertionSort (fun left right =>
    newerJob left right = true) _).mem_iff.mp first
  simpa using List.mem_filter.mp listed

theorem isRetry_of_jobAll {db : Db} {parent : JobId} {row : Job}
    (member : row ∈ db.jobAll) (isChild : row.parentJobId = some parent) :
    IsRetry parent row.id db := by
  rcases mem_jobAll.mp member with ⟨live, isLive, rfl⟩ | finished
  · rw [parentJobId_shown] at isChild
    exact ⟨live, List.mem_append_left _ isLive, (id_shown db live).symm,
      isChild⟩
  · exact ⟨row, List.mem_append_right _ finished, rfl, isChild⟩

theorem latestRetry_isRetry {db : Db} {job : JobId} {child : Job}
    (found : db.latestRetry job = some child) :
    IsRetry job child.id db := by
  obtain ⟨member, isChild⟩ := latestRetry_mem found
  exact isRetry_of_jobAll member isChild

theorem latestRetry_eq_none {db : Db} {job : JobId} :
    db.latestRetry job = none ↔ ¬HasRetry job db := by
  constructor
  · intro isNone hasRetry
    exact latestRetry_ne_none hasRetry isNone
  · intro noRetry
    cases found : db.latestRetry job with
    | none => rfl
    | some child =>
        exact (noRetry (hasRetry_iff.mpr
          ⟨child.id, latestRetry_isRetry found⟩)).elim

/-! ## Where a chain of retries leads -/

/-- No job has two retries. -/
def OneRetry (db : Db) : Prop :=
  ∀ parent first second, IsRetry parent first db →
    IsRetry parent second db → first = second

/-- The job is superseded, in the live table or in history. -/
def Superseded (job : JobId) (db : Db) : Prop :=
  ∃ row ∈ db.stored, row.id = job ∧ superseded row = true

/-- An attempt that is over: a success, or a failure without a retry. -/
structure Concluded (db : Db) (last : Job) : Prop where
  finished : last ∈ db.history.rows
  outcome : last.status = .success ∨
    last.status = .failed ∧ ¬HasRetry last.id db

/-- The retries of a job lead to the given attempt, or a job on the way was
declared a success with it. -/
inductive Leads (db : Db) (last : Job) : Nat → JobId → Prop where
  | ends (hops : Nat) : Leads db last hops last.id
  | succeeded (hops : Nat) (row : Job) : row ∈ db.history.rows →
      row.status = .success → last.status = .success →
      Leads db last hops row.id
  | retried {hops : Nat} {job retry : JobId} : Superseded job db →
      IsRetry job retry db → Leads db last hops retry →
      Leads db last (hops + 1) job

theorem newestAttempt_of_done {db : Db} {row : Job} (hops : Nat)
    (done : superseded row = true → ¬HasRetry row.id db) :
    db.newestAttempt hops row = row := by
  cases hops with
  | zero => rfl
  | succ hops =>
      unfold Db.newestAttempt
      split
      · rename_i isSuperseded
        rw [latestRetry_eq_none.mpr (done isSuperseded)]
      · rfl

theorem Concluded.newestAttempt {db : Db} {last : Job}
    (concluded : Concluded db last)
    (hops : Nat) : db.newestAttempt hops last = last := by
  apply newestAttempt_of_done
  intro isSuperseded
  rcases concluded.outcome with success | ⟨_, noRetry⟩
  · simp [superseded, success] at isSuperseded
  · exact noRetry

theorem Concluded.status {db : Db} {last : Job}
    (concluded : Concluded db last) :
    last.status = .success ∨ last.status = .failed :=
  concluded.outcome.imp id And.left

/-- A chain that leads to an attempt is reported with that attempt's state. -/
theorem Leads.report {db : Db} {last : Job} {hops : Nat} {job : JobId}
    (leads : Leads db last hops job) (inv : Inv db) (oneRetry : OneRetry db)
    (concluded : Concluded db last) :
    ∃ row, db.seen job = some row ∧
      (db.newestAttempt hops row).status = last.status ∧
      (last.status = .failed → db.newestAttempt hops row = last) := by
  induction leads with
  | ends hops =>
      have same := concluded.newestAttempt hops
      exact ⟨last, seen_history inv concluded.finished, by rw [same],
        fun _ => same⟩
  | succeeded hops row member success lastSuccess =>
      have same : db.newestAttempt hops row = row := by
        apply newestAttempt_of_done
        intro isSuperseded
        simp [superseded, success] at isSuperseded
      refine ⟨row, seen_history inv member, ?_, ?_⟩
      · rw [same, success, lastSuccess]
      · intro failed
        rw [lastSuccess] at failed
        cases failed
  | @retried hops job retry isSuperseded isRetry _ ih =>
      obtain ⟨row, member, rfl, status⟩ := isSuperseded
      obtain ⟨child, isChild, sameStatus, same⟩ := ih
      refine ⟨row, seen_superseded inv member status, ?_⟩
      have latest : db.latestRetry row.id = some child := by
        cases found : db.latestRetry row.id with
        | none =>
            have noRetry := latestRetry_eq_none.mp found
            exact (noRetry (hasRetry_iff.mpr ⟨retry, isRetry⟩)).elim
        | some other =>
            have sameId := oneRetry row.id other.id retry
              (latestRetry_isRetry found) isRetry
            have seen := seen_of_mem inv (latestRetry_mem found).1
            rw [sameId, isChild] at seen
            exact seen.symm
      have step : db.newestAttempt (hops + 1) row =
          db.newestAttempt hops child := by
        simp [Db.newestAttempt, status, latest]
      rw [step]
      exact ⟨sameStatus, same⟩

/-- What is reported is where the chain leads. -/
theorem leads_of_report {db : Db} {last : Job} (inv : Inv db) {hops : Nat}
    {job : JobId} {row : Job} (seen : db.seen job = some row)
    (reported : db.newestAttempt hops row = last) :
    Leads db last hops job := by
  induction hops generalizing job row with
  | zero =>
      obtain ⟨_, rfl⟩ := mem_of_seen seen
      cases reported
      exact .ends 0
  | succ hops ih =>
      obtain ⟨member, rfl⟩ := mem_of_seen seen
      unfold Db.newestAttempt at reported
      split at reported
      · rename_i isSuperseded
        split at reported
        · rename_i child found
          have isSeen := seen_of_mem inv (latestRetry_mem found).1
          refine .retried ?_ (latestRetry_isRetry found)
            (ih isSeen reported)
          rcases mem_jobAll.mp member with ⟨live, isLive, rfl⟩ | finished
          · exact ⟨live, List.mem_append_left _ isLive,
              (id_shown db live).symm, superseded_shown isSuperseded⟩
          · exact ⟨row, List.mem_append_right _ finished, rfl, isSuperseded⟩
        · cases reported
          exact .ends _
      · cases reported
        exact .ends _

theorem newestAttempt_mem {db : Db} (hops : Nat) {row : Job}
    (member : row ∈ db.jobAll) : db.newestAttempt hops row ∈ db.jobAll := by
  induction hops generalizing row with
  | zero => exact member
  | succ hops ih =>
      unfold Db.newestAttempt
      split
      · split
        · rename_i child found
          exact ih (latestRetry_mem found).1
        · exact member
      · exact member

/-- The retry chain of the job has come to an end with a failure. -/
inductive ChainFails (db : Db) : JobId → Prop where
  | ends (row : Job) : row ∈ db.history.rows → row.status = .failed →
      ¬HasRetry row.id db → ChainFails db row.id
  | retried {job retry : JobId} : IsRetry job retry db →
      ChainFails db retry → ChainFails db job

theorem Leads.chainFails {db : Db} {last : Job} {hops : Nat} {job : JobId}
    (leads : Leads db last hops job) (concluded : Concluded db last)
    (failed : last.status = .failed) : ChainFails db job := by
  induction leads with
  | ends hops =>
      apply ChainFails.ends last concluded.finished failed
      rcases concluded.outcome with success | ⟨_, noRetry⟩
      · rw [failed] at success
        cases success
      · exact noRetry
  | succeeded hops row _ _ success =>
      rw [failed] at success
      cases success
  | retried _ isRetry _ ih => exact .retried isRetry ih

end Sqlery.Standalone
