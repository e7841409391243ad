import Sqlery.ReadCommitted.Derivation
import Sqlery.Standalone.Calls
import Sqlery.Standalone.Sparing
import Sqlery.Standalone.Attempts

/-!
# The retry marker and history

A failed job that is owed a retry carries the marker in its termination reason.
A move into history gives the row a settled reason, or it copies the one of the
live row.  The copies of `cascade_ancestor_status` are of rows in any state
that is not final, among them failed ancestors that still carry the marker.
-/

namespace Sqlery.Standalone

open ReadCommitted
open Script

/-! ## Rows and writes -/

/-- The reason carries no marker. -/
def unmarked (reason : String) : Bool := !isRetryPending reason

/-- The reason carries the marker once at most. -/
def settleable (reason : String) : Bool := unmarked (settledReason reason)

/-- A live row as the transitions leave it: a queued job is owed nothing. -/
def tidy (row : Job) : Bool :=
  (row.status ≠ .queued || unmarked row.terminationReason) &&
    settleable row.terminationReason

structure Tidy (db : Db) : Prop where
  live : ∀ row ∈ db.live.rows, tidy row = true
  history : ∀ row ∈ db.history.rows, unmarked row.terminationReason = true

/-- The write leaves the data tidy. -/
def Write.keepsTidy : Write → Bool
  | .insertLive row => tidy row
  | .setLive row => tidy row
  | .insertHistory row => unmarked row.terminationReason
  | _ => true

theorem tidy_apply {write : Write} {db : Db} (isTidy : Tidy db)
    (keeps : write.keepsTidy = true) : Tidy (write.apply db) where
  live := by
    intro row member
    rcases live_apply_origin (Table.get_of_mem member) with rfl | rfl | old
    · exact keeps
    · exact keeps
    · exact isTidy.live row (Table.mem_of_get old)
  history := by
    intro row member
    rcases history_apply_mem.mp member with old | ⟨rfl, _⟩
    · exact isTidy.history row old
    · exact keeps

/-- The transitions that copy the reason of the live row. -/
def Call.copies : Call → Bool
  | .markJobSuccess .. => true
  | .cascadeAncestorStatus .. => true
  | _ => false

/-- Where a history row of the call may have a marker from: from the live row
that its statement reads. -/
def Derived (cfg : Config) (call : Call) (snapshot current : Db) :
    Write → Prop
  | .insertHistory row => unmarked row.terminationReason = true ∨
      call.copies = true ∧
        ∃ live ∈ (basis cfg.dialect snapshot current).live.rows,
          live.id = row.id ∧ unmarked live.terminationReason = false
  | write => write.keepsTidy = true

abbrev Marks (cfg : Config) (call : Call) {α : Type} (script : Sql α) : Prop :=
  script.Derives Tidy (Derived cfg call) fun write => write.keepsTidy = true

abbrev MarksWith (cfg : Config) (call : Call) {α : Type} (script : Sql α)
    (post : α → Prop) : Prop :=
  script.DerivesWith Tidy (Derived cfg call)
    (fun write => write.keepsTidy = true) post

section Statements

variable {cfg : Config} {call : Call}

theorem derived_of_entry {snapshot current : Db} {write : Write}
    (isEntry : write.isEntry = true) :
    Derived cfg call snapshot current write := by
  cases write <;> first | rfl | cases isEntry

theorem Enters.marks {α : Type} {script : Sql α} (enters : Enters script) :
    Marks cfg call script :=
  Prog.Derives.of_emits enters.emits (fun _ _ => trivial)
    (fun _ _ _ isEntry => derived_of_entry isEntry) fun _ never => never.elim

theorem closeWhere_marks {admits : Attempt → Bool} {now : Time}
    {outcome : Outcome} :
    Marks cfg call (closeWhere cfg admits now outcome) := by
  apply Derives.bind
  · apply Derives.exec
    intro snapshot current others effect _ _ ran
    cases ran
    refine ⟨fun write member => ?_, fun write member => by cases member⟩
    obtain ⟨row, _, rfl⟩ := List.mem_map.mp member
    rfl
  · exact fun _ => .pure _

theorem closeAttempt_marks {job : JobId} {attempt : Option AttemptHandle}
    {outcome : Outcome} :
    Marks cfg call (closeAttempt cfg job attempt outcome) := by
  apply Derives.bind (.read _)
  intro now
  cases attempt with
  | none => exact .bind closeWhere_marks fun _ => .pure _
  | some handle =>
      apply Derives.bind closeWhere_marks
      intro rowcount
      split
      · exact .pure _
      · exact .raise _

/-- The reason that the move gives the row, if there is one, or that of the
row, is not marked, or the call is one that copies. -/
def Settling (call : Call) (fence : MoveFence) (values : Values) : Prop :=
  ∀ row : Job, tidy row = true →
    fence.requireStatus.all (row.status ∈ ·) = true →
    unmarked (values.terminationReason.getD row.terminationReason) = true ∨
      call.copies = true ∧ values.terminationReason = none

theorem insertHistory_marks {fence : MoveFence} {status : Status}
    {values : Values} {now : Time} (settles : Settling call fence values) :
    Marks cfg call (insertHistory cfg fence status values now) := by
  apply Derives.exec
  intro snapshot current others effect first second ran
  cases ran
  refine ⟨fun write member => ?_, fun write member => by cases member⟩
  obtain ⟨moved, isMoved, rfl⟩ := List.mem_map.mp member
  obtain ⟨row, isRow, rfl⟩ := List.mem_map.mp isMoved
  obtain ⟨inLive, isAdmitted⟩ := List.mem_filter.mp isRow
  have isTidy : tidy row = true := by
    cases isDialect : cfg.dialect with
    | postgresql =>
        rw [isDialect] at inLive
        exact first.live row inLive
    | sqlite =>
        rw [isDialect] at inLive
        exact second.live row inLive
  have hasStatus : fence.requireStatus.all (row.status ∈ ·) = true := by
    simp only [MoveFence.admits, Bool.and_eq_true] at isAdmitted
    exact isAdmitted.2
  rcases settles row isTidy hasStatus with plain | ⟨copies, none⟩
  · exact Or.inl plain
  · cases isMarked : unmarked row.terminationReason with
    | true =>
        left
        simpa [historyRow, Values.update, none] using isMarked
    | false => exact Or.inr ⟨copies, row, inLive, rfl, isMarked⟩

theorem finishIn_marks {fence : MoveFence} {status : Status}
    {values : Values} (settles : Settling call fence values) :
    Marks cfg call (finishIn cfg fence status values) := by
  apply Derives.bind (.read _)
  intro now
  apply Derives.bind
  · unfold lockForMove
    split
    · apply Derives.exec
      intro snapshot current others effect _ _ ran
      cases ran
      exact ⟨fun write member => (List.not_mem_nil member).elim,
        fun write member => (List.not_mem_nil member).elim⟩
    · exact .read _
  · intro locked
    split
    · exact .pure _
    · apply Derives.bind (insertHistory_marks settles)
      intro inserted
      apply Derives.bind
      · apply Derives.bind
        · apply Derives.exec
          intro snapshot current others effect _ _ ran
          cases ran
          refine ⟨fun write member => ?_, fun write member => by cases member⟩
          obtain ⟨row, _, rfl⟩ := List.mem_map.mp member
          rfl
        · exact fun _ => .pure _
      · intro deleted
        split
        · exact .bind (.read _) fun _ =>
            .bind closeWhere_marks fun _ => .pure _
        · exact .raise _

/-- A move that says what the reason becomes. -/
theorem settling_of_reason {fence : MoveFence} {values : Values}
    {reason : String} (given : values.terminationReason = some reason)
    (plain : unmarked reason = true) : Settling call fence values := by
  intro row _ _
  left
  rw [given]
  exact plain

/-- A move that says nothing of the reason, by a call that copies. -/
theorem settling_of_copies {fence : MoveFence} {values : Values}
    (given : values.terminationReason = none) (copies : call.copies = true) :
    Settling call fence values :=
  fun _ _ _ => Or.inr ⟨copies, given⟩

/-- A queued row has no marker to copy. -/
theorem settling_of_queued {fence : MoveFence} {values : Values}
    (given : values.terminationReason = none)
    (queued : fence.requireStatus = some [.queued]) :
    Settling call fence values := by
  intro row isTidy hasStatus
  left
  have isQueued : row.status = .queued := by simpa [queued] using hasStatus
  have parts := (Bool.and_eq_true_iff.mp isTidy).1
  rw [given]
  simpa [isQueued] using parts

theorem updateLive_marks {admits : Db → Job → Bool} {set : Job → Job}
    (keeps : ∀ row, tidy row = true → tidy (set row) = true) :
    Marks cfg call (updateLive cfg admits set) := by
  apply Derives.bind
  · apply Derives.exec
    intro snapshot current others effect first second ran
    cases ran
    refine ⟨fun write member => ?_, fun write member => by cases member⟩
    obtain ⟨row, isRow, rfl⟩ := List.mem_map.mp member
    have inLive := Table.mem_of_get (mem_targets_iff.mp isRow).1
    exact keeps row (second.live row inLive)
  · exact fun _ => .pure _

/-! ## Rechecks -/

theorem failQueued_marks {job : Job} {error reason : String} {now : Time}
    (plain : unmarked reason = true) :
    Marks cfg call (failQueued cfg job error reason now) :=
  .bind deleteReadyWhere_enters.marks fun _ =>
    .bind deleteBlockedStmt_enters.marks fun _ =>
      finishIn_marks (settling_of_reason rfl plain)

theorem recheckBlocked_marks {job : JobId} {createdAt : Time} :
    Marks cfg call (recheckBlocked cfg job createdAt) := by
  apply Derives.session
  apply Derives.bind (.read _)
  intro found
  apply Derives.bind ifWaiting_enters.marks
  intro waiting
  cases waiting with
  | none =>
      exact .bind deleteBlockedStmt_enters.marks fun _ =>
        .bind .commit fun _ => .pure _
  | some row =>
      apply Derives.bind judge_enters.marks
      intro verdict
      split
      · exact .bind .commit fun _ => .pure _
      · exact .bind (.read _) fun _ =>
          .bind (failQueued_marks (by decide)) fun _ =>
            .bind .commit fun _ => .pure _
      · exact .bind deleteBlockedStmt_enters.marks fun _ =>
          .bind writeReady_enters.marks fun _ =>
            .bind .commit fun _ => .pure _

theorem recheckAll_marks (dependents : List (JobId × Time))
    (released : Nat) (work : Work) :
    Marks cfg call (recheckAll cfg dependents released work) := by
  induction dependents generalizing released work with
  | nil => exact .pure _
  | cons dependent rest ih =>
      apply Derives.bind recheckBlocked_marks
      intro outcome
      cases outcome <;> exact ih _ _

theorem releaseDependents_marks {job : JobId} {parent : Option JobId} :
    Marks cfg call (releaseDependents cfg job parent) := by
  suffices ∀ fuel work seen released,
      Marks cfg call (releaseLoop cfg fuel work seen released) from this _ _ _ _
  intro fuel
  induction fuel with
  | zero => exact fun _ _ _ => .diverge
  | succ fuel ih =>
      intro work seen released
      simp only [releaseLoop]
      split
      · exact .pure _
      · split
        · exact ih _ _ _
        · apply Derives.bind dependentsOf_enters.marks
          intro dependents
          exact .bind (recheckAll_marks _ _ _) fun _ => ih _ _ _

theorem releaseDependentsQuietly_marks {job : JobId}
    {parent : Option JobId} :
    Marks cfg call (releaseDependentsQuietly cfg job parent) :=
  .quietly releaseDependents_marks

end Statements

/-! ## Transitions -/

section Transitions

variable {cfg : Config} {call : Call}

theorem findJob_marks {job : JobId} : Marks cfg call (findJob job) := by
  apply Derives.bind (.read _)
  intro found
  cases found with
  | some row => exact .pure _
  | none => exact .read _

theorem openAttemptIfQueued_marks {row : Job} :
    Marks cfg call (openAttemptIfQueued row) := by
  unfold openAttemptIfQueued
  split
  · exact .read _
  · exact .pure _

theorem getJobById_marks {job : JobId} :
    Marks cfg call (getJobById cfg job) := by
  apply Derives.session
  apply Derives.bind (.read _)
  intro found
  cases found with
  | some row => exact .bind openAttemptIfQueued_marks fun _ => .pure _
  | none =>
      apply Derives.bind (.read _)
      intro finished
      cases finished with
      | some row => exact .pure _
      | none =>
          dsimp only
          split
          · exact .read _
          · exact .pure _

/-- A completion: a failure that is owed a retry stays where it is, with a
reason that can be settled. -/
theorem recordOutcome_marks {job : JobId} {version : Option Nat}
    {status : Status} {values : Values}
    (fits : ∀ reason, values.terminationReason = some reason →
      status = .failed ∧ settleable reason = true)
    (copies : values.terminationReason = none → call.copies = true) :
    Marks cfg call (recordOutcome cfg job version status values) := by
  simp only [recordOutcome]
  split
  · rename_i inPlace
    simp only [Bool.and_eq_true, decide_eq_true_eq] at inPlace
    cases given : values.terminationReason with
    | none =>
        rw [given] at inPlace
        cases inPlace.2
    | some reason =>
        apply Derives.bind
        · apply updateLive_marks
          intro row _
          simp only [tidy, Values.update, given, Option.getD_some, inPlace.1]
          simpa using (fits reason given).2
        · exact fun _ => .pure _
  · rename_i moves
    cases given : values.terminationReason with
    | none => exact finishIn_marks (settling_of_copies given (copies given))
    | some reason =>
        apply finishIn_marks (settling_of_reason given _)
        have failed := (fits reason given).1
        simpa [failed, given, unmarked] using moves

theorem fencedUpdate_marks {job : JobId} {version : Option Nat}
    {status : Status} {values : Values} {attempt : Option AttemptHandle}
    {outcome : Outcome} {parent : Option JobId}
    (fits : ∀ reason, values.terminationReason = some reason →
      status = .failed ∧ settleable reason = true)
    (copies : values.terminationReason = none → call.copies = true) :
    Marks cfg call (fencedUpdate cfg job version status values attempt outcome
      parent) := by
  apply Derives.bind closeAttempt_marks
  intro _
  apply Derives.bind (recordOutcome_marks fits copies)
  intro applied
  cases applied with
  | true =>
      exact .bind .commit fun _ =>
        .bind (.whenever releaseDependentsQuietly_marks) fun _ =>
          findJob_marks
  | false =>
      apply Derives.bind .rollback
      intro _
      cases version with
      | some version => exact .raise _
      | none => exact .pure _

theorem withAttempt_reason (values : Values) (attempt : Option Attempt) :
    (values.withAttempt attempt).terminationReason =
      values.terminationReason := by
  cases attempt <;> rfl

theorem markJob_marks {job : JobId} {version : Option Nat}
    {attempt : Option AttemptHandle} {outcome : Outcome}
    {mark : Job → Time → Job} {values : Job → Values}
    (fits : ∀ row now reason, (values (mark row now)).terminationReason =
      some reason → (mark row now).status = .failed ∧
        settleable reason = true)
    (copies : ∀ row now, (values (mark row now)).terminationReason = none →
      call.copies = true) :
    Marks cfg call (markJob cfg job version attempt outcome mark values) := by
  apply Derives.bind getJobById_marks
  intro found
  cases found with
  | none => exact .pure _
  | some found =>
      cases found with
      | staged row => exact .pure _
      | finished row =>
          simp only [alreadyFinished]
          split
          · exact .raise _
          · exact .pure _
      | live shown =>
          apply Derives.session
          apply Derives.bind (.read _)
          intro live
          cases live with
          | none => exact .pure _
          | some row =>
              apply Derives.bind (.read _)
              intro running
              apply Derives.bind (.read _)
              intro now
              apply fencedUpdate_marks
              · intro reason given
                rw [withAttempt_reason] at given
                exact fits _ _ reason given
              · intro given
                rw [withAttempt_reason] at given
                exact copies _ _ given

theorem markJobSuccess_marks {job : JobId} {output : String}
    {version : Option Nat} {attempt : Option AttemptHandle}
    (copies : call.copies = true) :
    Marks cfg call (markJobSuccess cfg job output version attempt) :=
  markJob_marks (fun _ _ _ given => by cases given) fun _ _ _ => copies

theorem markJobFailed_marks {job : JobId} {error traceback reason : String}
    {version : Option Nat} {attempt : Option AttemptHandle}
    (fits : settleable reason = true) :
    Marks cfg call
      (markJobFailed cfg job error traceback version reason attempt) := by
  apply markJob_marks
  · intro row now other given
    cases given
    exact ⟨rfl, fits⟩
  · intro row now given
    cases given

theorem cancelJob_marks {job : JobId} :
    Marks cfg call (cancelJob cfg job) := by
  apply Derives.session
  apply Derives.bind
  · apply Derives.bind (.read _)
    intro found
    cases found with
    | none => exact .pure _
    | some row =>
        refine .bind deleteReadyWhere_enters.marks fun _ =>
          .bind deleteBlockedStmt_enters.marks fun _ =>
            .bind (finishIn_marks (settling_of_queued rfl rfl))
              fun cancelled => ?_
        cases cancelled
        · exact .bind .rollback fun _ => .pure _
        · exact .bind .commit fun _ =>
            .bind releaseDependentsQuietly_marks fun _ => .pure _
  · intro cancelled
    cases cancelled with
    | true => exact .pure _
    | false =>
        split
        · cases ‹false = true›
        · split
          · apply Derives.bind (.read _)
            intro staged
            cases staged with
            | none => exact .pure _
            | some row =>
                apply Derives.bind
                · apply Derives.bind
                  · apply Derives.exec
                    intro snapshot current others effect _ _ ran
                    cases ran
                    refine ⟨fun write member => ?_,
                      fun write member => by cases member⟩
                    obtain ⟨row, _, rfl⟩ := List.mem_map.mp member
                    rfl
                  · exact fun _ => .pure _
                · exact fun _ => .bind .commit fun _ => .pure _
          · exact .pure _

theorem failZombieJob_marks {job : JobId} {reason : String} :
    Marks cfg call (failZombieJob cfg job reason) := by
  have zombie : unmarked "zombie_job" = true := by decide
  apply Derives.bind
  · apply Derives.session
    apply Derives.bind (.read _)
    intro found
    cases found with
    | none => exact .pure _
    | some row =>
        apply Derives.bind (.read _)
        intro running
        cases running with
        | none => exact .pure _
        | some attempt =>
            apply Derives.bind (.read _)
            intro now
            apply Derives.bind closeWhere_marks
            intro closed
            split
            · exact .bind .rollback fun _ => .pure _
            · refine .bind (.read _) fun _ => .bind
                (finishIn_marks (settling_of_reason rfl zombie))
                fun moved => ?_
              cases moved
              · exact .bind .rollback fun _ => .pure _
              · exact .bind .commit fun _ => .pure _
  · intro failed
    cases failed with
    | none => exact .pure _
    | some parent =>
        exact .bind releaseDependentsQuietly_marks fun _ => .pure _

/-- A live row that was read has a reason that can be settled. -/
theorem readLive_marks {admits : Job → Bool} {job : JobId} :
    MarksWith cfg call
      (read fun db => (db.live.get job).filter admits) fun found =>
        ∀ row, found = some row → settleable row.terminationReason = true := by
  apply DerivesWith.read
  intro db isTidy row isFound
  obtain ⟨inLive, _⟩ := Option.filter_eq_some_iff.mp isFound
  exact (Bool.and_eq_true_iff.mp
    (isTidy.live row (Table.mem_of_get inLive))).2

theorem finishFailed_marks {job : JobId} {status : Status} :
    Marks cfg call (finishFailed cfg job status) := by
  apply Derives.session
  apply Derives.bindWith readLive_marks
  intro found fits
  cases found with
  | none => exact .pure _
  | some row =>
      exact .bind (finishIn_marks (settling_of_reason rfl (fits row rfl)))
        fun _ => .commit

theorem cascadeAncestorStatus_marks {job : JobId} {status : Status}
    (final : isTerminal status = true) (copies : call.copies = true) :
    Marks cfg call (cascadeAncestorStatus cfg job status) := by
  apply Derives.session
  apply Derives.bind (.read _)
  intro parent
  refine .bind ?_ fun _ => .commit
  suffices ∀ fuel seen current,
      Marks cfg call (cascadeLoop cfg status fuel seen current) from this _ _ _
  intro fuel
  induction fuel with
  | zero => exact fun _ _ => .diverge
  | succ fuel ih =>
      intro seen current
      cases current with
      | none => exact .pure _
      | some ancestor =>
          simp only [cascadeLoop]
          split
          · exact .pure _
          · apply Derives.bind (.read _)
            intro found
            cases found with
            | none => exact .pure _
            | some row =>
                apply Derives.bind
                · simp only [cascadeOne, final, if_true]
                  exact .bind (finishIn_marks (settling_of_copies rfl copies))
                    fun _ => .pure _
                · exact fun _ => ih _ _

theorem currentStray_marks {stray : Job} {expired : Bool}
    (fits : settleable stray.terminationReason = true) :
    MarksWith cfg call (currentStray stray expired) fun found =>
      ∀ row, found = some row → settleable row.terminationReason = true := by
  unfold currentStray
  split
  · exact readLive_marks
  · apply DerivesWith.pure
    intro row same
    cases same
    exact fits

theorem settleRow_marks {stray : Job} {expired : Bool}
    (fits : settleable stray.terminationReason = true) :
    Marks cfg call (settleRow cfg stray expired) := by
  apply Derives.bindWith (currentStray_marks fits)
  intro current fits
  cases current with
  | none => exact .raise _
  | some job =>
      apply Derives.bind (.read _)
      intro hasRetry
      split
      · exact .pure _
      · exact .bind (finishIn_marks (settling_of_reason rfl (fits job rfl)))
          fun _ => .bind .commit fun _ =>
            .bind (.whenever releaseDependentsQuietly_marks) fun _ => .pure _

theorem settleLoop_marks (rows : List Job) (expired : Bool) (moved : Nat)
    (fits : ∀ row ∈ rows, settleable row.terminationReason = true) :
    (settleLoop cfg rows expired moved).Derives Tidy (Derived cfg call)
      (fun write => write.keepsTidy = true) fun _ => True := by
  induction rows generalizing expired moved with
  | nil => trivial
  | cons job rest ih =>
      apply Prog.Derives.bind (settleRow_marks (fits job List.mem_cons_self))
      intro result _
      have later := fun row member => fits row (List.mem_cons_of_mem _ member)
      cases result with
      | error exception => trivial
      | ok settled =>
          cases settled with
          | none => exact ih _ _ later
          | some ok => exact ih _ _ later

theorem settleFinishedJobs_marks {limit : Nat} :
    Marks cfg call (settleFinishedJobs cfg limit) := by
  apply Derives.bind (.read _)
  intro now
  apply Derives.session
  have reads : MarksWith cfg call
      (read (strays cfg limit (now - cfg.settleGrace))) fun rows =>
        ∀ row ∈ rows, settleable row.terminationReason = true := by
    apply DerivesWith.read
    intro db isTidy row member
    have inTable := List.mem_of_mem_take member
    rw [List.mem_insertionSort] at inTable
    have isRow := (List.mem_filter.mp inTable).1
    exact (Bool.and_eq_true_iff.mp (isTidy.live row isRow)).2
  apply Derives.bindWith reads
  intro rows fits
  apply Prog.Derives.bind (settleLoop_marks rows false 0 fits)
  exact fun _ _ => trivial

end Transitions

/-! ## Runs -/

/-- A call of a transition into history, with a reason as the workers give
them: `mark_job_failed` says plainly why a job failed, or it marks that
once. -/
def Call.transition : Call → Bool
  | .markJobSuccess .. => true
  | .markJobFailed _ _ _ _ reason _ => settleable reason
  | .settleRetryPending _ => true
  | .settleFinishedJobs _ => true
  | .markJobArchived _ => true
  | .cascadeAncestorStatus _ status => isTerminal status
  | .cancelJob _ => true
  | .failZombieJob .. => true
  | _ => false

/-- The transitions, and what the rest of the backend may do to the data at
any time: it moves nothing into history, and it leaves live rows tidy. -/
def transitions (cfg : Config) : System Db Write Lock Call Return where
  schema := schema cfg.dialect
  body call := (scriptOf cfg call).run
  ambient write := write.keepsTidy && match write with
    | .insertHistory _ => false
    | _ => true

theorem transition_marks {cfg : Config} {call : Call}
    (made : call.transition = true) :
    Marks cfg call (scriptOf cfg call) := by
  cases call with
  | markJobSuccess => exact .map (markJobSuccess_marks rfl)
  | markJobFailed => exact .map (markJobFailed_marks made)
  | settleRetryPending => exact .map finishFailed_marks
  | settleFinishedJobs => exact .map settleFinishedJobs_marks
  | markJobArchived => exact .map finishFailed_marks
  | cascadeAncestorStatus =>
      exact .map (cascadeAncestorStatus_marks made rfl)
  | cancelJob => exact .map cancelJob_marks
  | failZombieJob => exact .map failZombieJob_marks
  | _ => cases made

/-- Where the history rows come from. -/
def markers (cfg : Config) : Derivation (transitions cfg) where
  inv := Tidy
  made call := call.transition = true
  derives := Derived cfg
  keeps write := write.keepsTidy = true
  bodies _ made :=
    Prog.Derives.mono (transition_marks made) (fun _ _ _ derived => derived)
      fun _ _ => trivial
  kept _ _ keeps isTidy := tidy_apply isTidy keeps
  ambient _ isAmbient := (Bool.and_eq_true_iff.mp isAmbient).1

variable {cfg : Config} {n : Nat}

abbrev Transitions (n : Nat) := State Db Write Lock Call Return n

/-- Only transitions are called, and where one of them copies the reason of a
live row into history, the live row is owed no retry. -/
structure CopiesSettled (cfg : Config) (state : Transitions n)
    (action : Action Write Call n) : Prop where
  transition : ∀ process call, action = .start process call →
    call.transition = true
  settled : ∀ process call snapshot current writes, action = .step process →
    call.copies = true →
    (transitions cfg).TakesEffect state process call snapshot current writes →
    ∀ row, .insertHistory row ∈ writes →
      ∀ live ∈ (basis cfg.dialect snapshot current).live.rows,
        live.id = row.id → isRetryPending live.terminationReason = false

/-- No history row is owed a retry. -/
theorem history_owes_no_retry {state : Transitions n} {start : Db}
    (isTidy : Tidy start)
    (reaches : (transitions cfg).Reaches (CopiesSettled cfg)
      (System.initial start) state) :
    ∀ row ∈ state.db.history.rows,
      isRetryPending row.terminationReason = false := by
  have good : (markers cfg).Good state := by
    apply Derivation.reached _ _ isTidy reaches
    · intro _ process call permitted
      exact permitted.transition process call rfl
    · intro current action permitted process call snapshot seen writes isStep
        takes write member derived
      cases write with
      | insertHistory row =>
          rcases derived with plain | ⟨copies, live, inLive, same, marked⟩
          · exact plain
          · have settled := permitted.settled process call snapshot seen writes
              isStep copies takes row member live inLive same
            rw [unmarked, settled] at marked
            cases marked
      | _ => exact derived
  intro row member
  simpa [unmarked] using good.inv.history row member

/-! ## Runs of one process -/

/-- Only transitions are called. -/
def startsTransition (_ : Transitions n) :
    Action Write Call n → Bool
  | .start _ call => call.transition
  | _ => true

/-- A transition that copies sees no marker at all. -/
def copiesUnmarked (cfg : Config) (state : Transitions n) :
    Action Write Call n → Bool
  | .step process =>
      match (state.session process).call, (state.session process).snapshot with
      | some call, some snapshot =>
          !call.copies || (basis cfg.dialect snapshot
            ((transitions cfg).view state.db
              (state.session process).state)).live.rows.all fun live =>
                unmarked live.terminationReason
      | _, _ => true
  | _ => true

theorem copiesSettled_of_checks (state : Transitions n)
    (action : Action Write Call n)
    (checked : (startsTransition state action &&
      copiesUnmarked cfg state action) = true) :
    CopiesSettled cfg state action := by
  rw [Bool.and_eq_true] at checked
  constructor
  · intro process call isStart
    subst isStart
    exact checked.1
  · intro process call snapshot current writes isStep copies takes row _ live
      inLive _
    subst isStep
    obtain ⟨_, _, _, isCall, _, isSnapshot, isView, _, _⟩ := takes
    have plain := checked.2
    simp only [copiesUnmarked, isCall, isSnapshot, copies, isView,
      Bool.not_true, Bool.false_or] at plain
    simpa [unmarked] using List.all_eq_true.mp plain live inLive

theorem tidy_installed : Tidy (installed .empty .empty 0) where
  live := fun _ member => by cases member
  history := fun _ member => by cases member

/-- The run of one process on a fresh database. -/
def transitionsTo (check : Transitions 1 → Action Write Call 1 → Bool)
    (actions : List (Action Write Call 1)) : Option (Transitions 1) :=
  (transitions sqlite).runWhile check
    (System.initial (installed .empty .empty 0)) actions

/-- A job fails that may be retried, and its retry is created. -/
def failsAndRetries : List (Action Write Call 1) :=
  .ambient (.insertLive { maxRetries := 1, id := 1, createdAt := 0 }) ::
    Action.calls 0 (.markJobFailed 1 "boom" "" none retryPending none) 14 ++
    [.ambient (.insertLive
      { maxRetries := 1, retryCount := 1, parentJobId := some 1, id := 2
        createdAt := 0 })]

/-- The failed job is archived before the retry succeeds. -/
def archivesFirst : List (Action Write Call 1) :=
  failsAndRetries ++ Action.calls 0 (.markJobArchived 1) 12 ++
    Action.calls 0 (.markJobSuccess 2 "done" none none) 25

/-- The worker dies before it archives the failed job. -/
def cascadesFirst : List (Action Write Call 1) :=
  failsAndRetries ++
    Action.calls 0 (.markJobSuccess 2 "done" none none) 25 ++
    Action.calls 0 (.cascadeAncestorStatus 2 .success) 13

theorem archivesFirst_ran : (transitionsTo (fun state action =>
    startsTransition state action && copiesUnmarked sqlite state action)
    archivesFirst).isSome = true := by
  decide +kernel

theorem history_owes_no_retry_archived : ∃ state : Transitions 1,
    (transitions sqlite).Reaches (CopiesSettled sqlite)
      (System.initial (installed .empty .empty 0)) state ∧
    state.db.history.rows.length = 2 ∧
    ∀ row ∈ state.db.history.rows,
      isRetryPending row.terminationReason = false := by
  have reached : (transitions sqlite).Reaches (CopiesSettled sqlite)
      (System.initial (installed .empty .empty 0)) _ :=
    System.reaches_of_runWhile _ copiesSettled_of_checks
      (Option.some_get archivesFirst_ran).symm
  have two : ((transitionsTo _ archivesFirst).get
      archivesFirst_ran).db.history.rows.length = 2 := by
    decide +kernel
  exact ⟨_, reached, two, history_owes_no_retry tidy_installed reached⟩

theorem cascadesFirst_ran :
    (transitionsTo startsTransition cascadesFirst).isSome = true := by
  decide +kernel

/-- The ancestor that ends with its retry takes its marker into history. -/
theorem cascade_keeps_marker : ¬∀ state : Transitions 1,
    (transitions sqlite).Reaches (fun _ action => ∀ process call,
        action = .start process call → call.transition = true)
      (System.initial (installed .empty .empty 0)) state →
    ∀ row ∈ state.db.history.rows,
      isRetryPending row.terminationReason = false := by
  intro owesNone
  have sound : ∀ (state : Transitions 1) (action : Action Write Call 1),
      startsTransition state action = true → ∀ process call,
        action = .start process call → call.transition = true := by
    intro state action checked process call isStart
    subst isStart
    exact checked
  have reached := System.reaches_of_runWhile _ sound
    (Option.some_get cascadesFirst_ran).symm
  have marked : ((transitionsTo startsTransition cascadesFirst).get
      cascadesFirst_ran).db.history.rows.any
        (fun row => isRetryPending row.terminationReason) = true := by
    decide +kernel
  obtain ⟨row, member, isMarked⟩ := List.any_eq_true.mp marked
  rw [owesNone _ reached row member] at isMarked
  cases isMarked

end Sqlery.Standalone
