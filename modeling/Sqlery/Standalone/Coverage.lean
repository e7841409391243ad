import Sqlery.Standalone.Liveness
import Sqlery.Standalone.CallFootprints
import Sqlery.Standalone.Attempts

/-!
# No live job is stranded

The recovery code finds jobs by their stored rows.  Every row the workers
write to the live table is one it looks for, apart from the rows
`amark_shutting_down` writes.
-/

namespace Sqlery.Standalone

open ReadCommitted
open Script

/-- The stored row is one the recovery code looks for. -/
def Recoverable (job : Job) : Prop :=
  job.status = .queued ∨ (job.status = .failed ∧ job.finishedAt.isSome)

def AllRecoverable (db : Db) : Prop := ∀ job ∈ db.live.rows, Recoverable job

def LeavesRecoverable (write : Write) : Prop :=
  ∀ job, write.liveRow = some job → Recoverable job

theorem AllRecoverable.apply {db : Db} {write : Write}
    (covered : AllRecoverable db) (leaves : LeavesRecoverable write) :
    AllRecoverable (write.apply db) := by
  intro row member
  cases write with
  | insertLive job =>
      rcases Table.mem_insert_iff.mp member with ⟨rfl, _⟩ | old
      · exact leaves _ rfl
      · exact covered row old
  | setLive job =>
      obtain ⟨old, isOld, rfl⟩ := List.mem_map.mp member
      split
      · exact leaves _ rfl
      · exact covered old isOld
  | deleteLive job => exact covered row (List.mem_filter.mp member).1
  | discardLive job => exact covered row (List.mem_filter.mp member).1
  | _ => exact covered row member

theorem AllRecoverable.applyAll {cfg : Config} {db : Db}
    {writes : List Write} (covered : AllRecoverable db)
    (leaves : ∀ write ∈ writes, LeavesRecoverable write) :
    AllRecoverable ((schema cfg.dialect).applyAll writes db) := by
  induction writes generalizing db with
  | nil => exact covered
  | cons write writes ih =>
      rw [Schema.applyAll_cons]
      exact ih (covered.apply (leaves write (by simp)))
        fun later member => leaves later (by simp [member])

/-- Rows the recovery code looks for are all that is written. -/
def recoverable : Scope where
  sees := AllRecoverable
  emits := LeavesRecoverable
  free := by
    intro write free job isRow
    cases write with
    | insertLive row => cases free
    | setLive row => cases free
    | _ => cases isRow

theorem recoverable_admitsNew (spec : JobSpec) :
    recoverable.AdmitsNew spec where
  live := by
    intro id createdAt job isRow
    cases isRow
    exact Or.inl rfl
  staged := by
    intro id createdAt job isRow
    cases isRow

theorem recoverable_admitsFailure (job : JobId) :
    recoverable.AdmitsFailure job := by
  intro row _ failed finished written isRow
  cases isRow
  exact Or.inr ⟨failed, finished⟩

/-! ## What the recovery code selects -/

/-- The row is covered by one of the predicates the recovery code selects
by. -/
inductive Covered (cfg : Config) (db : Db) (job : Job) : Prop where
  | waiting : db.waiting job = true → Covered cfg db job
  | running (attempt : Attempt) :
      (job, attempt) ∈ runningWithAttempts [] db → Covered cfg db job
  | pending (cutoff : Time) (limit : Nat) : job.status = .failed →
      likeRetryPending (cfg.dialect = .sqlite) job.terminationReason = true →
      (∀ later wider, cutoff ≤ later → limit ≤ wider →
        job ∈ jobsPendingRetry cfg later wider db) → Covered cfg db job
  | stray (cutoff : Time) (limit : Nat) : isTerminal job.status = true →
      (∀ later wider, cutoff ≤ later → limit ≤ wider →
        job ∈ strays cfg wider later db) → Covered cfg db job

/-- A page long enough holds every row that qualifies. -/
theorem mem_page {rows : List Job} {order : Job → Job → Prop}
    [DecidableRel order] {job : Job} {limit : Nat} (member : job ∈ rows)
    (fits : rows.length ≤ limit) :
    job ∈ (rows.insertionSort order).take limit := by
  rw [List.take_of_length_le (by rw [List.length_insertionSort]; exact fits)]
  exact (List.mem_insertionSort order).mpr member

theorem covered_queued {cfg : Config} {db : Db} {job : Job}
    (live : job ∈ db.live.rows) (queued : job.status = .queued) :
    Covered cfg db job := by
  cases isRunning : db.hasOpenAttempt job.id with
  | false => exact .waiting (by simp [Db.waiting, queued, isRunning])
  | true =>
      obtain ⟨attempt, stored, runs⟩ := List.any_eq_true.mp isRunning
      apply Covered.running attempt
      rw [mem_runningWithAttempts]
      exact ⟨stored, runs, live, queued, by simp [inQueues]⟩

theorem covered_failed {cfg : Config} {db : Db} {job : Job}
    (live : job ∈ db.live.rows) (failed : job.status = .failed)
    (finished : job.finishedAt.isSome) : Covered cfg db job := by
  obtain ⟨finishedAt, isFinished⟩ := Option.isSome_iff_exists.mp finished
  cases marked : likeRetryPending (cfg.dialect = .sqlite)
      job.terminationReason with
  | true =>
      apply Covered.pending finishedAt db.live.rows.length failed marked
      intro later wider after fits
      refine mem_page (List.mem_filter.mpr ⟨live, ?_⟩)
        (le_trans (List.length_filter_le _ _) fits)
      simp [failed, marked, isFinished, after]
  | false =>
      apply Covered.stray finishedAt db.live.rows.length (by simp [failed,
        isTerminal])
      intro later wider after fits
      refine mem_page (List.mem_filter.mpr ⟨live, ?_⟩)
        (le_trans (List.length_filter_le _ _) fits)
      simp [failed, isTerminal, marked, isFinished, after]

theorem Recoverable.covered {cfg : Config} {db : Db} {job : Job}
    (recoverable : Recoverable job) (live : job ∈ db.live.rows) :
    Covered cfg db job := by
  rcases recoverable with queued | ⟨failed, finished⟩
  · exact covered_queued live queued
  · exact covered_failed live failed finished

/-! ## The asynchronous transitions -/

section Asynchronous

variable {cfg : Config}

theorem fetchRetries_keeps (hops : Nat) (frontier : List Job)
    (retries : List (JobId × Option Job)) :
    recoverable.Keeps (fetchRetries hops frontier retries) := by
  have level : ∀ (deps : List Job) (known : List (JobId × Option Job))
      (next : List Job), recoverable.Keeps (fetchLevel deps known next) := by
    intro deps
    induction deps with
    | nil => exact fun _ _ => .pure _
    | cons dep rest ih => exact fun _ _ => .bind (.read _) fun _ => ih _ _
  induction hops generalizing frontier retries with
  | zero => exact .pure _
  | succ hops ih =>
      simp only [fetchRetries]
      split
      · exact .pure _
      · exact .bind (level _ _ _) fun _ => ih _ _

theorem arecheckBlocked_keeps {job : JobId} {createdAt : Time} :
    recoverable.Keeps (arecheckBlocked cfg job createdAt) := by
  apply Emits.session
  apply Emits.bind (.read _)
  intro found
  cases found with
  | none =>
      exact .bind deleteBlockedStmt_keeps fun _ =>
        .bind .commit fun _ => .pure _
  | some row =>
      apply Emits.bind
      · exact .bind (.read _) fun _ => .bind (fetchRetries_keeps _ _ _)
          fun _ => judgeDependencies_keeps fun _ => .pure _
      · intro verdict
        split
        · exact .bind .commit fun _ => .pure _
        · exact .bind deleteReadyWhere_keeps fun _ =>
            .bind deleteBlockedStmt_keeps fun _ => .bind (.read _) fun _ =>
              .bind finishIn_keeps fun _ => .bind .commit fun _ => .pure _
        · exact .bind deleteBlockedStmt_keeps fun _ =>
            .bind writeReady_keeps fun _ => .bind .commit fun _ => .pure _

theorem adependentsOf_keeps {job : JobId} {parent : Option JobId} :
    recoverable.Keeps (adependentsOf job parent) := by
  apply Emits.session
  apply Emits.bind
  · cases parent with
    | none => exact .read _
    | some parent => exact .pure _
  · exact fun parent => .bind (ancestorIds_keeps _ _ _) fun _ => .read _

theorem arecheckAll_keeps (dependents : List (JobId × Time))
    (released : Nat) (work : Work) :
    recoverable.Keeps (arecheckAll cfg dependents released work) := by
  induction dependents generalizing released work with
  | nil => exact .pure _
  | cons dependent rest ih =>
      apply Emits.bind arecheckBlocked_keeps
      intro outcome
      cases outcome <;> exact ih _ _

theorem areleaseDependents_keeps {job : JobId} {parent : Option JobId} :
    recoverable.Keeps (areleaseDependents cfg job parent) := by
  suffices ∀ fuel work seen released,
      recoverable.Keeps
        (areleaseLoop cfg fuel work seen released) from this _ _ _ _
  intro fuel
  induction fuel with
  | zero => exact fun _ _ _ => .diverge
  | succ fuel ih =>
      intro work seen released
      simp only [areleaseLoop]
      split
      · exact .pure _
      · split
        · exact ih _ _ _
        · exact .bind adependentsOf_keeps fun _ =>
            .bind (arecheckAll_keeps _ _ _) fun _ => ih _ _ _

theorem afinish_keeps {job : JobId} {attempt : Option AttemptHandle}
    {outcome : Outcome} {status : Status} {values : Values} {inPlace : Bool}
    (failed : inPlace = true → status = .failed)
    (finished : values.finishedAt.isSome) :
    recoverable.Keeps
      (afinish cfg job attempt outcome status values inPlace) := by
  apply Emits.bind (.read _)
  intro running
  dsimp only
  apply Emits.bind closeAttempt_keeps
  intro _
  cases inPlace with
  | true =>
      apply Emits.bind
      · refine .bind (keeps_updateLive fun db row _ => ?_) fun _ => .pure _
        obtain ⟨finishedAt, isFinished⟩ :=
          Option.isSome_iff_exists.mp finished
        apply recoverable_admitsFailure _ _ rfl (failed rfl)
        cases running <;>
          simp [Values.update, Values.withAttempt, isFinished]
      · exact fun _ => .bind .commit fun _ =>
          .whenever (.quietly areleaseDependents_keeps)
  | false =>
      refine .bind (.read _) fun parent => .bind finishIn_keeps
        fun moved => ?_
      cases moved
      · exact .rollback
      · exact .bind .commit fun _ =>
          .whenever (.quietly areleaseDependents_keeps)

theorem amarkSuccess_keeps {job : JobId} {output : String}
    {attempt : Option AttemptHandle} :
    recoverable.Keeps (amarkSuccess cfg job output attempt) :=
  .bind (.read _) fun _ => .session (afinish_keeps (fun inPlace => by
    cases inPlace) rfl)

theorem amarkFailed_keeps {job : JobId} {error traceback : String}
    {attempt : Option AttemptHandle} :
    recoverable.Keeps (amarkFailed cfg job error traceback attempt) :=
  .bind (.read _) fun _ => .session (.bind (.read _) fun _ =>
    afinish_keeps (fun _ => rfl) rfl)

theorem arequeueRetry_keeps {failed : Job} :
    recoverable.Keeps (arequeueRetry cfg failed) := by
  apply Emits.bind (.read _)
  intro now
  apply Emits.session
  refine .bind (.read _) fun _ =>
    .bind (flushNew_keeps (recoverable_admitsNew _)) fun _ =>
    .bind (.read _) fun found => ?_
  cases found with
  | none => exact .commit
  | some row => exact .bind finishIn_keeps fun _ => .commit

theorem afailZombieJob_keeps {job : JobId} {reason : String} :
    recoverable.Keeps (afailZombieJob cfg job reason) := by
  apply Emits.bind (.session failZombieIn_keeps)
  intro failed
  cases failed with
  | none => exact .pure _
  | some parent =>
      exact .bind (.quietly areleaseDependents_keeps) fun _ => .pure _

/-! ## The footprint of the workers -/

/-- The statuses the workers pass: an ancestor is marked and a claim is
released with the status of a finished job. -/
def WorkerCall.made : WorkerCall → Bool
  | .call (.cascadeAncestorStatus _ status) => isTerminal status
  | .call (.releaseClaimedJob _ _ status _ _) => isTerminal status
  | _ => true

def WorkerCall.marksShutdown : WorkerCall → Bool
  | .amarkShuttingDown _ => true
  | _ => false

theorem recoverable_admits {call : Call}
    (made : (WorkerCall.call call).made = true) :
    recoverable.Admits cfg call := by
  have failure := recoverable_admitsFailure
  have new := recoverable_admitsNew
  cases call with
  | markJobFailed => exact fun _ => failure _
  | cascadeAncestorStatus => exact made
  | releaseClaimedJob => exact made
  | createJob => exact new _
  | advanceScheduledTaskIfDue => exact new _
  | failExecution => exact fun _ => ⟨failure _, fun _ _ _ => new _⟩
  | recoverLostRetries => exact fun _ _ _ _ _ _ => new _
  | cleanupStaleJobs => exact ⟨failure, fun _ _ => new _⟩
  | _ => trivial

theorem worker_keeps {call : WorkerCall} (made : call.made = true)
    (marks : call.marksShutdown = false) :
    recoverable.Keeps (workerScript cfg call) := by
  cases call with
  | call call => exact scriptOf_keeps (recoverable_admits made)
  | amarkSuccess => exact .map amarkSuccess_keeps
  | amarkFailed => exact .map amarkFailed_keeps
  | amarkShuttingDown => cases marks
  | arequeueRetry => exact .map arequeueRetry_keeps
  | afailZombieJob => exact .map afailZombieJob_keeps
  | areleaseDependents => exact .map areleaseDependents_keeps

/-- `amark_shutting_down` writes private rows only. -/
theorem amarkShuttingDown_emits {job : JobId} :
    (amarkShuttingDown cfg job).Emits (fun _ => True) (fun _ => True)
      Aside := by
  apply Emits.session
  apply Emits.bind
  · unfold partitionOf
    split
    · exact .read _
    · exact .pure _
  · intro createdAt
    apply Emits.bind
    · apply Emits.bind
      · apply Emits.exec
        intro snapshot current others effect _ _ ran
        cases ran
        exact ⟨fun _ _ => trivial, fun write member => by cases member⟩
      · exact fun rows => .pure _
    · exact fun _ => .commit

variable (cfg) in
/-- What the workers write to the live table, and the rows it then has. -/
def recovery : Footprint (workers cfg) where
  inv := AllRecoverable
  made call := call.made = true
  sees call db := call.marksShutdown = false → AllRecoverable db
  emits call write := call.marksShutdown = false → LeavesRecoverable write
  drifts := Aside
  bodies := by
    intro call made
    cases marks : call.marksShutdown with
    | false =>
        have keeps : recoverable.Keeps (workerScript cfg call) :=
          worker_keeps made marks
        apply Prog.Emits.mono keeps
        · exact fun db covered => covered rfl
        · exact fun write leaves _ => leaves
        · exact fun result _ => trivial
    | true =>
        cases call with
        | amarkShuttingDown job =>
            apply Prog.Emits.mono (Emits.map amarkShuttingDown_emits)
            · exact fun db _ => trivial
            · intro write _ never
              cases never
            · exact fun result _ => trivial
        | _ => cases marks
  seen := by
    intro call db pending covered leaves marks
    exact covered.applyAll fun write member => leaves write member marks
  drifting := by
    intro db write aside covered job member
    have same : (write.apply db).live = db.live := aside db
    exact covered job (same ▸ member)
  ambient := by
    intro write isAmbient db
    cases write <;> first | rfl | cases isAmbient

end Asynchronous

/-! ## Runs -/

abbrev Workers (n : Nat) := State Db Write Lock WorkerCall Return n

/-- The states the workers of both kinds reach from a fresh database. -/
def WorkersReach (cfg : Config) {n : Nat}
    (allowed : Workers n → Action Write WorkerCall n → Prop)
    (state : Workers n) : Prop :=
  ∃ tasks registered clock, (workers cfg).Reaches allowed
    (System.initial (installed tasks registered clock)) state

/-- The workers make their calls, and any of them may be killed. -/
def Works {n : Nat} (_ : Workers n) (action : Action Write WorkerCall n) :
    Prop :=
  ∀ process call, action = .start process call → call.made = true

/-- No `amark_shutting_down` commits the write of a live row. -/
def ShutsDownNone {n : Nat} (state : Workers n)
    (action : Action Write WorkerCall n) : Prop :=
  ∀ process job, System.committing state action =
      some (process, .amarkShuttingDown job) →
    (state.session process).state.pending = []

theorem recovery_keeps {cfg : Config} {n : Nat} {state : Workers n}
    {action : Action Write WorkerCall n} (inv : AllRecoverable state.db)
    (none : ShutsDownNone state action) :
    (recovery cfg).Keeps state action := by
  intro process call committing leaves
  cases marks : call.marksShutdown with
  | false => exact inv.applyAll fun write member => leaves write member marks
  | true =>
      cases call with
      | amarkShuttingDown job =>
          rw [none process job committing]
          exact inv
      | _ => cases marks

theorem allRecoverable {cfg : Config} {n : Nat} {state : Workers n}
    (reached : WorkersReach cfg (fun state action => Works state action ∧
      ShutsDownNone state action) state) :
    AllRecoverable state.db := by
  obtain ⟨tasks, registered, clock, reaches⟩ := reached
  have good : (recovery cfg).Good state := by
    apply Footprint.reached _ _ _ reaches
    · intro before process call permitted
      exact permitted.1 process call rfl
    · exact fun before action inv permitted =>
        recovery_keeps inv permitted.2
    · intro job member
      cases member
  exact good.inv

/-- As long as no shutdown marks a live row, every live row is covered by a
predicate the recovery code selects by. -/
theorem live_jobs_covered (cfg : Config) {n : Nat} {state : Workers n}
    (reached : WorkersReach cfg (fun state action => Works state action ∧
      ShutsDownNone state action) state) {job : Job}
    (live : job ∈ state.db.live.rows) : Covered cfg state.db job :=
  (allRecoverable reached job live).covered live

theorem not_covered_shuttingDown {cfg : Config} {db : Db} {job : Job}
    (shuttingDown : job.status = .shuttingDown) : ¬Covered cfg db job := by
  intro covered
  cases covered with
  | waiting waits => simp [Db.waiting, shuttingDown] at waits
  | running attempt runs =>
      have queued := (mem_runningWithAttempts.mp runs).2.2.2.1
      rw [shuttingDown] at queued
      cases queued
  | pending cutoff limit failed =>
      rw [shuttingDown] at failed
      cases failed
  | stray cutoff limit final =>
      rw [shuttingDown] at final
      cases final

/-- The state the calls of workers lead to on an empty database, if each step
passes a check. -/
def workersTo (cfg : Config) {n : Nat}
    (check : Workers n → Action Write WorkerCall n → Bool)
    (actions : List (Action Write WorkerCall n)) : Option (Workers n) :=
  (workers cfg).runWhile check (System.initial (installed .empty .empty 0))
    actions

theorem reach_workersTo {cfg : Config} {n : Nat}
    {check : Workers n → Action Write WorkerCall n → Bool}
    {allowed : Workers n → Action Write WorkerCall n → Prop}
    (sound : ∀ state action, check state action = true →
      allowed state action)
    {actions : List (Action Write WorkerCall n)}
    (ran : (workersTo cfg check actions).isSome = true) :
    WorkersReach cfg allowed ((workersTo cfg check actions).get ran) :=
  ⟨.empty, .empty, 0,
    System.reaches_of_runWhile _ sound (Option.some_get ran).symm⟩

def startsMade {n : Nat} (_ : Workers n) : Action Write WorkerCall n → Bool
  | .start _ call => call.made
  | _ => true

theorem works_of_startsMade {n : Nat} (state : Workers n)
    (action : Action Write WorkerCall n)
    (checked : startsMade state action = true) : Works state action := by
  intro process call isStart
  subst isStart
  exact checked

def shutsDownNone {n : Nat} (state : Workers n)
    (action : Action Write WorkerCall n) : Bool :=
  match System.committing state action with
  | some (process, .amarkShuttingDown _) =>
      (state.session process).state.pending.isEmpty
  | _ => true

theorem shutsDownNone_sound {n : Nat} (state : Workers n)
    (action : Action Write WorkerCall n)
    (checked : shutsDownNone state action = true) :
    ShutsDownNone state action := by
  intro process job committing
  simpa [shutsDownNone, committing] using checked

/-- A worker claims a job that may be retried. -/
def claimsRetryable : List (Action Write WorkerCall 1) :=
  Action.calls 0 (.call (.createJob { maxRetries := 1 })) 13 ++
    Action.calls 0 (.call (.aclaimJob ["default"] "")) 12

/-- The job fails, and the worker is killed before it queues the retry; the
shutdown of a job that is gone marks nothing. -/
def killedBeforeRetry : List (Action Write WorkerCall 1) :=
  claimsRetryable ++ Action.calls 0 (.amarkFailed 1 "boom" "" none) 10 ++
    [.crash 0] ++ Action.calls 0 (.amarkShuttingDown 7) 4

/-- The worker starts to shut down and is killed. -/
def killedShuttingDown : List (Action Write WorkerCall 1) :=
  claimsRetryable ++ Action.calls 0 (.amarkShuttingDown 1) 4 ++ [.crash 0]

theorem killedBeforeRetry_ran : (workersTo sqlite (fun state action =>
    startsMade state action && shutsDownNone state action)
    killedBeforeRetry).isSome = true := by
  decide +kernel

theorem live_jobs_covered_killed : ∃ (state : Workers 1) (job : Job),
    WorkersReach sqlite (fun state action => Works state action ∧
      ShutsDownNone state action) state ∧
    job ∈ state.db.live.rows ∧ job.status = .failed ∧
    Covered sqlite state.db job := by
  have reached : WorkersReach sqlite (fun state action =>
      Works state action ∧ ShutsDownNone state action) _ :=
    reach_workersTo (fun state action checked => by
      rw [Bool.and_eq_true] at checked
      exact ⟨works_of_startsMade state action checked.1,
        shutsDownNone_sound state action checked.2⟩) killedBeforeRetry_ran
  have failed : (((workersTo sqlite _ killedBeforeRetry).get
      killedBeforeRetry_ran).db.live.get 1).any
        (fun job => decide (job.status = .failed)) = true := by
    decide +kernel
  obtain ⟨job, found, isFailed⟩ := (Option.any_eq_true _ _).mp failed
  have live := Table.mem_of_get found
  exact ⟨_, job, reached, live, of_decide_eq_true isFailed,
    live_jobs_covered sqlite reached live⟩

theorem killedShuttingDown_ran :
    (workersTo sqlite startsMade killedShuttingDown).isSome = true := by
  decide +kernel

/-- A worker that is killed while it shuts down leaves a row no recovery code
selects. -/
theorem live_job_stranded : ¬∀ (state : Workers 1),
    WorkersReach sqlite Works state → ∀ job ∈ state.db.live.rows,
      Covered sqlite state.db job := by
  intro covers
  have marked : (((workersTo sqlite startsMade killedShuttingDown).get
      killedShuttingDown_ran).db.live.get 1).any
        (fun job => decide (job.status = .shuttingDown)) = true := by
    decide +kernel
  obtain ⟨job, found, shuttingDown⟩ := (Option.any_eq_true _ _).mp marked
  apply not_covered_shuttingDown (of_decide_eq_true shuttingDown)
  exact covers _ (reach_workersTo works_of_startsMade killedShuttingDown_ran)
    job (Table.mem_of_get found)

end Sqlery.Standalone
