import Mathlib.Data.List.Sort
import Sqlery.Standalone.Calls
import Sqlery.Standalone.Frames

/-!
# What a call may record of a finished job

Every call that moves a row into history gives it a status and some columns;
the other columns are those of the live row, or of the job's newest attempt.
What a completion gives is computed from rows and attempts it has read, which
another transaction may have changed since.  The rows it may have read are the
versions of the live row, and of an attempt everything but its end is settled
when it is opened.
-/

namespace Sqlery.Standalone

open ReadCommitted

/-! ## What calls may do -/

/-- Calls that insert jobs, and replace named ones. -/
def Call.creates : Call → Bool
  | .createJob _ => true
  | .advanceScheduledTaskIfDue _ _ _ _ => true
  | .failExecution _ _ _ _ _ => true
  | .recoverLostRetries _ _ => true
  | .cleanupStaleJobs _ => true
  | _ => false

/-- Calls that open attempts. -/
def Call.opens : Call → Bool
  | .claimJob _ _ => true
  | .claimJobById _ _ => true
  | .atomicClaimJob _ _ => true
  | .aclaimJob _ _ => true
  | .amarkRunning _ _ => true
  | _ => false

/-- Calls whose new jobs are retries. -/
def Call.retries : Call → Bool
  | .failExecution _ _ _ _ _ => true
  | .recoverLostRetries _ _ => true
  | .cleanupStaleJobs _ => true
  | _ => false

/-- Calls that look for jobs to retry. -/
def Call.takesUp : Call → Bool
  | .recoverLostRetries _ _ => true
  | .cleanupStaleJobs _ => true
  | _ => false

def Call.sweeps : Call → Bool
  | .cleanupStaleJobs _ => true
  | _ => false

/-- Calls that record a success without presenting an attempt. -/
def Call.succeedsUnfenced : Call → Bool
  | .markJobSuccess _ _ _ none => true
  | .releaseClaimedJob _ _ status _ _ => status = .success
  | .cascadeAncestorStatus _ status => status = .success
  | _ => false

/-- The job a call completes under an attempt handle. -/
def Call.completes : Call → Option JobId
  | .markJobSuccess jobId _ _ (some _) => some jobId
  | .markJobFailed jobId _ _ _ _ (some _) => some jobId
  | .failExecution job _ _ _ _ => some job.id
  | _ => none

/-- The call may set the status of a row back to `queued`. -/
def Call.requeues : Call → Bool
  | .cascadeAncestorStatus _ status => status = .queued
  | _ => false

/-- Calls that settle rows whose job has ended. -/
def Call.tidies : Call → Bool
  | .settleFinishedJobs _ => true
  | .maintainReadyQueue _ _ _ => true
  | _ => false

/-! ## Attempts as they were opened -/

/-- The attempt as its claim opened it. -/
def asOpened (attempt : Attempt) : Attempt :=
  { attempt with finishedAt := none, outcome := none }

def openings (attempts : Table Attempt.id) (job : JobId) : List Attempt :=
  (attempts.rows.filter fun attempt => attempt.jobId = job).map asOpened

/-- The newest attempt of the job, as it was opened. -/
def Db.newestOpening (db : Db) (job : JobId) : Option Attempt :=
  (byId (openings db.attempts job)).getLast?

theorem newestOpening_eq (db : Db) (job : JobId) :
    (newestWhere db fun attempt => attempt.jobId = job).map asOpened =
      db.newestOpening job := by
  have sorted : (byId (db.attempts.rows.filter fun attempt =>
      attempt.jobId = job)).map asOpened = byId (openings db.attempts job) :=
    List.map_insertionSort _ _ asOpened _ fun _ _ _ _ => Iff.rfl
  rw [Db.newestOpening, ← sorted, List.getLast?_map]
  rfl

/-- The history row of a move needs the attempts of its job only, as they were
opened. -/
theorem historyRow_congr {first second : Db} {row : Job} {status : Status}
    {values : Values} {now : Time}
    (same : first.newestOpening row.id = second.newestOpening row.id) :
    historyRow first row status values now =
      historyRow second row status values now := by
  rw [← newestOpening_eq, ← newestOpening_eq] at same
  simp only [historyRow]
  cases isFirst : newestWhere first fun attempt => attempt.jobId = row.id with
  | none =>
      rw [isFirst] at same
      cases isSecond : newestWhere second
          fun attempt => attempt.jobId = row.id with
      | none => rfl
      | some right =>
          rw [isSecond] at same
          cases same
  | some left =>
      rw [isFirst] at same
      cases isSecond : newestWhere second
          fun attempt => attempt.jobId = row.id with
      | none =>
          rw [isSecond] at same
          cases same
      | some right =>
          rw [isSecond] at same
          have opened : asOpened left = asOpened right := Option.some.inj same
          have claimedAt := congrArg Attempt.claimedAt opened
          have workerId := congrArg Attempt.workerId opened
          have workerPid := congrArg Attempt.workerPid opened
          have childPid := congrArg Attempt.childPid opened
          simp only [asOpened] at claimedAt workerId workerPid childPid
          simp only [Option.map_some, Option.bind_some, claimedAt, workerId,
            workerPid, childPid]

theorem openings_close (attempts : Table Attempt.id) (id : AttemptId)
    (now : Time) (outcome : Outcome) (job : JobId) :
    openings (closeRow attempts id now outcome) job =
      openings attempts job := by
  unfold closeRow
  cases found : attempts.get id with
  | none => rfl
  | some attempt =>
      have same : ∀ old ∈ attempts.rows,
          asOpened (if old.id = attempt.id then attempt.close now outcome
            else old) = asOpened old ∧
          (if old.id = attempt.id then attempt.close now outcome
            else old).jobId = old.jobId := by
        intro old member
        split
        · rename_i keyed
          have isOld : attempts.get id = some old := by
            have isKey : attempt.id = id := Table.key_of_get found
            rw [← isKey, ← keyed]
            exact Table.get_of_mem member
          rw [found] at isOld
          cases isOld
          exact ⟨rfl, rfl⟩
        · exact ⟨rfl, rfl⟩
      simp only [openings, Table.set, List.filter_map, List.map_map]
      have kept : attempts.rows.filter ((fun attempt =>
          decide (attempt.jobId = job)) ∘ fun old =>
            if old.id = (attempt.close now outcome).id then
              attempt.close now outcome else old) =
          attempts.rows.filter fun attempt => attempt.jobId = job := by
        apply List.filter_congr
        intro old member
        exact congrArg (fun other => decide (other = job))
          (same old member).2
      rw [kept]
      apply List.map_congr_left
      intro old member
      exact (same old (List.mem_filter.mp member).1).1

theorem openings_insert (attempts : Table Attempt.id) {attempt : Attempt}
    {job : JobId} (other : attempt.jobId ≠ job) :
    openings (attempts.insert attempt) job = openings attempts job := by
  unfold openings Table.insert
  split
  · simp [other]
  · rfl

/-- Only a claim of the job changes its newest attempt. -/
theorem newestOpening_after {writes : List Write} {db : Db} {job : JobId}
    (noInsert : ∀ attempt, .insertAttempt attempt ∈ writes →
      attempt.jobId ≠ job) :
    (after writes db).newestOpening job = db.newestOpening job := by
  induction writes generalizing db with
  | nil => rfl
  | cons write writes ih =>
      rw [after_cons, ih fun attempt member =>
        noInsert attempt (List.mem_cons_of_mem _ member)]
      cases write with
      | insertAttempt attempt =>
          simp only [Db.newestOpening, Write.apply,
            openings_insert _ (noInsert attempt List.mem_cons_self)]
      | closeAttempt id owner now outcome =>
          simp only [Db.newestOpening, Write.apply, openings_close]
      | _ => rfl

/-! ## What has been seen -/

/-- What `db` remembers of rows and attempts, `next` remembers too. -/
structure Remembering (db next : Db) : Prop where
  versions : ∀ row ∈ db.versions, row ∈ next.versions
  openings : ∀ attempt ∈ db.attempts.rows, ∃ later ∈ next.attempts.rows,
    asOpened later = asOpened attempt

theorem Remembering.refl (db : Db) : Remembering db db :=
  ⟨fun _ member => member, fun attempt member => ⟨attempt, member, rfl⟩⟩

theorem Remembering.trans {first second third : Db}
    (left : Remembering first second) (right : Remembering second third) :
    Remembering first third where
  versions := fun row member => right.versions row (left.versions row member)
  openings := by
    intro attempt member
    obtain ⟨later, isLater, same⟩ := left.openings attempt member
    obtain ⟨last, isLast, still⟩ := right.openings later isLater
    exact ⟨last, isLast, still.trans same⟩

theorem remembering_apply (write : Write) (db : Db) :
    Remembering db (write.apply db) := by
  cases write with
  | insertLive new =>
      exact ⟨fun row member => List.mem_cons_of_mem _ member,
        (Remembering.refl db).openings⟩
  | setLive new =>
      exact ⟨fun row member => List.mem_cons_of_mem _ member,
        (Remembering.refl db).openings⟩
  | insertAttempt new =>
      refine ⟨(Remembering.refl db).versions, fun attempt member => ?_⟩
      exact ⟨attempt, Table.mem_insert_iff.mpr (Or.inr member), rfl⟩
  | closeAttempt id job now outcome =>
      refine ⟨(Remembering.refl db).versions, fun attempt member => ?_⟩
      have found := closeRow_get db.attempts id attempt.id now outcome
      rw [Table.get_of_mem member] at found
      split at found
      · rename_i same
        rw [← same, Table.get_of_mem member] at found
        exact ⟨attempt.close now outcome, same ▸ Table.mem_of_get found, rfl⟩
      · exact ⟨attempt, Table.mem_of_get found, rfl⟩
  | _ => exact ⟨fun _ member => member, (Remembering.refl db).openings⟩

theorem remembering_after (writes : List Write) (db : Db) :
    Remembering db (after writes db) := by
  induction writes generalizing db with
  | nil => exact .refl db
  | cons write writes ih => exact (remembering_apply write db).trans (ih _)

/-- Every live row was written once. -/
def Versioned (db : Db) : Prop := ∀ row ∈ db.live.rows, row ∈ db.versions

theorem versioned_apply (write : Write) {db : Db} (versioned : Versioned db) :
    Versioned (write.apply db) := by
  intro row member
  rcases live_apply_origin (Table.get_of_mem member) with rfl | rfl | old
  · exact List.mem_cons_self
  · exact List.mem_cons_self
  · exact (remembering_apply write db).versions row
      (versioned row (Table.mem_of_get old))

theorem versioned_after (writes : List Write) {db : Db}
    (versioned : Versioned db) : Versioned (after writes db) := by
  induction writes generalizing db with
  | nil => exact versioned
  | cons write writes ih => exact ih (versioned_apply write versioned)

/-- What a completion has read of its job: a version of its row, and perhaps
an attempt of it. -/
structure Glimpse (db : Db) (job : JobId) (row : Job)
    (attempt : Option Attempt) : Prop where
  id : row.id = job
  version : row ∈ db.versions
  opened : ∀ read, attempt = some read → read.jobId = job ∧
    ∃ later ∈ db.attempts.rows, asOpened later = asOpened read

theorem Glimpse.later {db next : Db} {job : JobId} {row : Job}
    {attempt : Option Attempt} (seen : Glimpse db job row attempt)
    (remembers : Remembering db next) : Glimpse next job row attempt where
  id := seen.id
  version := remembers.versions row seen.version
  opened := by
    intro read isRead
    obtain ⟨isJob, later, member, same⟩ := seen.opened read isRead
    obtain ⟨last, isLast, still⟩ := remembers.openings later member
    exact ⟨isJob, last, isLast, still.trans same⟩

/-! ## The statuses and columns of the moves -/

/-- The columns `mark_job_success` writes. -/
def successValues (job : Job) : Values where
  finishedAt := job.finishedAt
  durationSeconds := some job.durationSeconds
  output := some job.output
  runs := some job.runs

/-- The columns `mark_job_failed` and `fail_zombie_job` write. -/
def failureValues (job : Job) : Values where
  finishedAt := job.finishedAt
  durationSeconds := some job.durationSeconds
  error := some job.error
  traceback := some job.traceback
  terminationReason := some job.terminationReason
  runs := some job.runs

/-- The error, traceback and reason of a failure the call records. -/
inductive Failure (call : Call) (job : JobId) :
    String → String → String → Prop where
  | marked (error traceback : String) (version : Option Nat)
      (reason : String) (attempt : Option AttemptHandle) :
      call = .markJobFailed job error traceback version reason attempt →
      Failure call job error traceback reason
  | executed (ran : Job) (attempt : AttemptHandle) (error traceback : String)
      (willRetry : Bool) :
      call = .failExecution ran attempt error traceback willRetry →
      ran.id = job →
      Failure call job error traceback
        (if willRetry then pendingReason "" else "")
  | unstarted : call.sweeps = true →
      Failure call job "Worker crashed before job execution started"
        "Job was stuck in 'running' state with no started_at timestamp" ""
  | stale (duration : Time) (threshold : Int) (owed : Bool) :
      call.sweeps = true →
      Failure call job (staleError duration threshold) staleTraceback
        (if owed then pendingReason "" else "")

/-- Why a job that nobody has claimed fails. -/
inductive Refusal (call : Call) (job : JobId) : String → String → Prop where
  | expired (row : Job) (error reason : String) :
      call = .expireQueuedJob row error reason → row.id = job →
      Refusal call job error reason
  | overdue (ttl : Int) : call.opens = true →
      Refusal call job s!"Job expired after {ttl}s in queue (ttl)" "expired"
  | dependencies (failed : List JobId) :
      Refusal call job (dependenciesFailed failed) "dependency_failed"

/-- The status a row enters history with that has ended already. -/
inductive Settlement (call : Call) (row : Job) : Status → Prop where
  | archives : call = .markJobArchived row.id ∨ call.retries = true →
      row.status = .failed → Settlement call row .archived
  | settles : call = .settleRetryPending row.id ∨ call.retries = true →
      row.status = .failed → Settlement call row .failed
  | sweeps (hasRetry : Bool) (status : Status) :
      call.tidies = true →
      settleStatus row.status row.terminationReason hasRetry = some status →
      Settlement call row status

/-- The status and the columns the call gives the job's row when it moves it
into history. -/
inductive Finishes (call : Call) (db : Db) (job : JobId) :
    Status → Values → Prop where
  | succeeds (output : String) (version : Option Nat)
      (handle : Option AttemptHandle) (row : Job) (attempt : Option Attempt)
      (now : Time) :
      call = .markJobSuccess job output version handle →
      Glimpse db job row attempt →
      Finishes call db job .success ((successValues (markSuccess
        (overlayRunning row attempt) output now)).withAttempt attempt)
  | fails (error traceback reason : String) (row : Job)
      (attempt : Option Attempt) (now : Time) :
      Failure call job error traceback reason → Glimpse db job row attempt →
      Finishes call db job .failed ((failureValues (markFailed
        (overlayRunning row attempt) error traceback reason now)).withAttempt
          attempt)
  | cancelled : call = .cancelJob job →
      Finishes call db job .failed { error := some "Cancelled by user" }
  | refused (error reason : String) (now : Time) :
      Refusal call job error reason →
      Finishes call db job .failed
        { error := some error
          terminationReason := some reason
          finishedAt := some now }
  | zombie (reason : String) (row : Job) (attempt : Attempt) (now : Time) :
      call = .failZombieJob job reason → Glimpse db job row (some attempt) →
      Finishes call db job .failed (failureValues (markFailed
        (overlayRunning row (some attempt)) reason "" "zombie_job" now))
  | settled (row : Job) (status : Status) :
      Settlement call row status → Glimpse db job row none →
      Finishes call db job status
        { terminationReason :=
            some (settledTerminationReason row.terminationReason) }
  | cascaded (child : JobId) (status : Status) :
      call = .cascadeAncestorStatus child status →
      Finishes call db job status {}
  | released (claimed : Job) (worker : String) (status : Status)
      (processed : Nat) (kwargs : Values) (row : Job)
      (attempt : Option Attempt) (now : Time) :
      call = .releaseClaimedJob claimed worker status processed kwargs →
      Glimpse db job row attempt → claimed.id = job →
      Finishes call db job status
        { kwargs with
          finishedAt := kwargs.finishedAt.or (some now)
          durationSeconds := kwargs.durationSeconds.or (some
            (((attempt.map (·.claimedAt)).or row.startedAt).map (now - ·))) }

theorem Finishes.later {call : Call} {db next : Db} {job : JobId}
    {status : Status} {values : Values}
    (finishes : Finishes call db job status values)
    (remembers : Remembering db next) :
    Finishes call next job status values := by
  cases finishes with
  | succeeds output version handle row attempt now isCall seen =>
      exact .succeeds output version handle row attempt now isCall
        (seen.later remembers)
  | fails error traceback reason row attempt now failure seen =>
      exact .fails error traceback reason row attempt now failure
        (seen.later remembers)
  | cancelled isCall => exact .cancelled isCall
  | refused error reason now refusal =>
      exact .refused error reason now refusal
  | zombie reason row attempt now isCall seen =>
      exact .zombie reason row attempt now isCall (seen.later remembers)
  | settled row status settles seen =>
      exact .settled row status settles (seen.later remembers)
  | cascaded child status isCall => exact .cascaded child status isCall
  | released claimed worker status processed kwargs row attempt now isCall
      seen isJob =>
      exact .released claimed worker status processed kwargs row attempt now
        isCall (seen.later remembers) isJob

end Sqlery.Standalone
