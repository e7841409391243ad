import Sqlery.ReadCommitted.Footprint
import Sqlery.Standalone.Closing
import Sqlery.Standalone.Worker

/-!
# Footprints of the transitions

What the calls write, whatever they read.  A scope restricts the rows of jobs
that may be written and leaves every other write free; whether a call keeps to
it is checked statement by statement.  Here are the statements, the
transitions the calls share and the claims.
-/

namespace Sqlery.Standalone

open ReadCommitted
open Script

/-- What takes effect at once leaves the live table alone. -/
def Aside (write : Write) : Prop := ∀ db, (write.apply db).live = db.live

/-- The write inserts or changes the row of a job. -/
def Write.writesJob : Write → Bool
  | .insertLive _ => true
  | .setLive _ => true
  | .insertStaged _ => true
  | _ => false

/-- The live row a write leaves behind. -/
def Write.liveRow : Write → Option Job
  | .insertLive job => some job
  | .setLive job => some job
  | _ => none

/-- What a session sees and the writes it may make. -/
structure Scope where
  sees : Db → Prop
  emits : Write → Prop
  free : ∀ write, write.writesJob = false → emits write

/-- The script keeps to the scope. -/
def Scope.Keeps (S : Scope) {α : Type} (script : Sql α) : Prop :=
  script.Emits S.sees S.emits Aside

/-- The script keeps to the scope and returns what satisfies `post`. -/
def Scope.KeepsWith (S : Scope) {α : Type} (script : Sql α)
    (post : α → Prop) : Prop :=
  script.EmitsWith S.sees S.emits Aside post

/-- The scope admits the rows of new jobs with this specification. -/
structure Scope.AdmitsNew (S : Scope) (spec : JobSpec) : Prop where
  live : ∀ id createdAt,
    S.emits (.insertLive { toJobSpec := spec, id, createdAt })
  staged : ∀ id createdAt, S.emits (.insertStaged { id, createdAt, spec })

/-- The scope admits that the job's failure is recorded in its live row. -/
def Scope.AdmitsFailure (S : Scope) (job : JobId) : Prop :=
  ∀ row : Job, row.id = job → row.status = .failed →
    row.finishedAt.isSome → S.emits (.setLive row)

section Statements

variable {S : Scope} {cfg : Config}

/-- A statement that writes no row of a job. -/
theorem keeps_exec {α : Type} {statement : Stmt α}
    (leaves : ∀ snapshot current others effect,
      statement snapshot current others = some effect →
      (∀ write ∈ effect.writes, write.writesJob = false) ∧
        ∀ write ∈ effect.atOnce, Aside write) :
    S.Keeps (exec statement) := by
  apply Emits.exec
  intro snapshot current others effect _ _ ran
  obtain ⟨writes, atOnce⟩ := leaves snapshot current others effect ran
  exact ⟨fun write member => S.free write (writes write member), atOnce⟩

theorem keeps_dml {K V : Type} [DecidableEq K] {key : V → K}
    {table : Db → Table key} {admits : Db → V → Bool} {write : V → Write}
    (leaves : ∀ row, (write row).writesJob = false) :
    S.Keeps (exec (dml table cfg admits write)) := by
  apply keeps_exec
  intro snapshot current others effect ran
  cases ran
  refine ⟨fun emitted member => ?_, fun emitted member => by cases member⟩
  obtain ⟨row, _, rfl⟩ := List.mem_map.mp member
  exact leaves row

theorem keeps_insertUnlessFound {K V : Type} [DecidableEq K]
    {key : V → K} {table : Db → Table key} {lock : V → Lock}
    {insert found : V → Write} {rows : List V}
    (inserts : ∀ row, (insert row).writesJob = false)
    (finds : ∀ row, (found row).writesJob = false) :
    S.Keeps (exec (insertUnlessFound table cfg lock insert found rows)) := by
  apply keeps_exec
  intro snapshot current others effect ran
  simp only [insertUnlessFound] at ran
  split at ran
  · cases ran
  · cases ran
    refine ⟨fun emitted member => ?_, fun emitted member => by cases member⟩
    obtain ⟨row, _, rfl⟩ := List.mem_map.mp member
    split
    · exact finds row
    · exact inserts row

theorem keeps_locking {V : Type} {statement : Stmt (List V)}
    (locks : ∀ snapshot current others effect,
      statement snapshot current others = some effect →
      effect.writes = [] ∧ effect.atOnce = []) :
    S.Keeps (exec statement) := by
  apply keeps_exec
  intro snapshot current others effect ran
  obtain ⟨writes, atOnce⟩ := locks snapshot current others effect ran
  constructor
  · intro write member
    rw [writes] at member
    cases member
  · intro write member
    rw [atOnce] at member
    cases member

theorem keeps_updateLive {admits : Db → Job → Bool} {set : Job → Job}
    (admitted : ∀ db row, admits db row = true → S.emits (.setLive (set row))) :
    S.Keeps (updateLive cfg admits set) := by
  apply Emits.bind
  · apply Emits.exec
    intro snapshot current others effect _ _ ran
    cases ran
    refine ⟨fun emitted member => ?_, fun emitted member => by cases member⟩
    obtain ⟨row, isRow, rfl⟩ := List.mem_map.mp member
    exact admitted _ row (mem_targets_iff.mp isRow).2.1
  · exact fun rows => .pure _

theorem closeWhere_keeps {admits : Attempt → Bool} {now : Time}
    {outcome : Outcome} : S.Keeps (closeWhere cfg admits now outcome) :=
  .bind (keeps_dml fun _ => rfl) fun _ => .pure _

theorem deleteReadyWhere_keeps {admits : Ready → Bool} :
    S.Keeps (deleteReadyWhere cfg admits) :=
  .bind (keeps_dml fun _ => rfl) fun _ => .pure _

theorem deleteBlockedStmt_keeps {jobs : List JobId} :
    S.Keeps (deleteBlockedStmt cfg jobs) :=
  .bind (keeps_dml fun _ => rfl) fun _ => .pure _

theorem dropEntries_keeps {jobs : List JobId} :
    S.Keeps (dropEntries cfg jobs) :=
  .bind deleteReadyWhere_keeps fun _ =>
    .bind deleteBlockedStmt_keeps fun _ => .pure _

theorem updateReadyStmt_keeps {job : Job} :
    S.Keeps (updateReadyStmt cfg job) :=
  .bind (keeps_dml fun _ => rfl) fun _ => .pure _

theorem writeReady_keeps {jobs : List Job} {fresh : Bool} :
    S.Keeps (writeReady cfg jobs fresh) := by
  apply Emits.bind
  · unfold runningAmong
    split
    · exact .pure _
    · exact .read _
  · intro running
    dsimp only
    split
    · exact .pure _
    · apply Emits.bind
      · unfold writerSlot
        split
        · exact .read _
        · exact .pure _
      · intro slot
        exact keeps_insertUnlessFound (fun _ => rfl) fun _ => rfl

theorem insertBlockedStmt_keeps {rows : List Blocked} :
    S.Keeps (insertBlockedStmt cfg rows) :=
  keeps_insertUnlessFound (fun _ => rfl) fun _ => rfl

theorem insertAttempt_keeps {job : JobId} {worker : Option WorkerId}
    {now : Time} : S.Keeps (insertAttempt cfg job worker now) := by
  apply keeps_exec
  intro snapshot current others effect ran
  cases ran
  constructor
  · intro write member
    rw [List.mem_singleton.mp member]
    rfl
  · intro write member
    rw [List.mem_singleton.mp member]
    exact fun db => rfl

theorem startAttempt_keeps {job : Job} {worker : Option WorkerId}
    {now : Time} : S.Keeps (startAttempt cfg job worker now) := by
  apply Emits.bind
  · unfold lockJob
    split
    · exact .bind (keeps_locking fun _ _ _ _ ran => by
        cases ran; exact ⟨rfl, rfl⟩) fun _ => .pure _
    · exact .read _
  · intro found
    cases found with
    | none => exact .pure _
    | some row =>
        apply Emits.bind (.read _)
        intro running
        split
        · exact .bind insertAttempt_keeps fun _ => .pure _
        · split <;> exact .pure _

theorem closeAttempt_keeps {job : JobId} {attempt : Option AttemptHandle}
    {outcome : Outcome} : S.Keeps (closeAttempt cfg job attempt outcome) := by
  apply Emits.bind (.read _)
  intro now
  cases attempt with
  | none => exact .bind closeWhere_keeps fun _ => .pure _
  | some handle =>
      apply Emits.bind closeWhere_keeps
      intro rowcount
      split
      · exact .pure _
      · exact .raise _

/-- A move takes a row out of the live table. -/
theorem finishIn_keeps {fence : MoveFence} {status : Status}
    {values : Values} : S.Keeps (finishIn cfg fence status values) := by
  apply Emits.bind (.read _)
  intro now
  apply Emits.bind
  · unfold lockForMove
    split
    · exact keeps_locking fun _ _ _ _ ran => by cases ran; exact ⟨rfl, rfl⟩
    · exact .read _
  · intro locked
    split
    · exact .pure _
    · apply Emits.bind
      · apply keeps_exec
        intro snapshot current others effect ran
        cases ran
        refine ⟨fun write member => ?_, fun write member => by cases member⟩
        obtain ⟨row, _, rfl⟩ := List.mem_map.mp member
        rfl
      · intro inserted
        apply Emits.bind (.bind (keeps_dml fun _ => rfl) fun _ => .pure _)
        intro deleted
        split
        · exact .bind (.read _) fun _ =>
            .bind closeWhere_keeps fun _ => .pure _
        · exact .raise _

theorem failQueued_keeps {job : Job} {error reason : String} {now : Time} :
    S.Keeps (failQueued cfg job error reason now) :=
  .bind deleteReadyWhere_keeps fun _ =>
    .bind deleteBlockedStmt_keeps fun _ => finishIn_keeps

/-! ## Dependents -/

theorem newestRetry_keeps {latest : JobId → Sql (Option Job)}
    (reads : ∀ job, S.Keeps (latest job)) (hops : Nat) (dep : Job) :
    S.Keeps (newestRetry latest hops dep) := by
  induction hops generalizing dep with
  | zero => exact .pure _
  | succ hops ih =>
      simp only [newestRetry]
      split
      · apply Emits.bind (reads _)
        intro found
        cases found with
        | none => exact .pure _
        | some child => exact ih child
      · exact .pure _

theorem judgeDependencies_keeps {deps : List JobId}
    {fetch : JobId → Option Job} {latest : JobId → Sql (Option Job)}
    (reads : ∀ job, S.Keeps (latest job)) :
    S.Keeps (judgeDependencies deps fetch latest) := by
  suffices ∀ failed pending,
      S.Keeps (judgeFrom fetch latest deps failed pending) from this [] false
  induction deps with
  | nil => exact fun failed pending => .pure _
  | cons dep rest ih =>
      intro failed pending
      simp only [judgeFrom]
      split
      · exact ih _ _
      · apply Emits.bind (newestRetry_keeps reads _ _)
        intro newest
        split
        · exact ih _ _
        · split
          · exact ih _ _
          · exact ih _ _

theorem judge_keeps {deps : List JobId} : S.Keeps (judge deps) :=
  .bind (.read _) fun _ => judgeDependencies_keeps fun _ => .read _

theorem ifWaiting_keeps {found : Option Job} :
    S.Keeps (ifWaiting found) := by
  cases found with
  | none => exact .pure _
  | some job =>
      simp only [ifWaiting]
      split
      · exact .pure _
      · exact .bind (.read _) fun _ => .pure _

theorem recheckBlocked_keeps {job : JobId} {createdAt : Time} :
    S.Keeps (recheckBlocked cfg job createdAt) := by
  apply Emits.session
  apply Emits.bind (.read _)
  intro found
  apply Emits.bind ifWaiting_keeps
  intro waiting
  cases waiting with
  | none =>
      exact .bind deleteBlockedStmt_keeps fun _ =>
        .bind .commit fun _ => .pure _
  | some row =>
      apply Emits.bind judge_keeps
      intro verdict
      split
      · exact .bind .commit fun _ => .pure _
      · exact .bind (.read _) fun _ => .bind failQueued_keeps fun _ =>
          .bind .commit fun _ => .pure _
      · exact .bind deleteBlockedStmt_keeps fun _ =>
          .bind writeReady_keeps fun _ => .bind .commit fun _ => .pure _

theorem ancestorIds_keeps (hops : Nat) (ids : List JobId)
    (parent : Option JobId) : S.Keeps (ancestorIds hops ids parent) := by
  induction hops generalizing ids parent with
  | zero => exact .pure _
  | succ hops ih =>
      cases parent with
      | none => exact .pure _
      | some job =>
          simp only [ancestorIds]
          split
          · exact .pure _
          · exact .bind (.read _) fun next => ih _ next

theorem recheckAll_keeps (dependents : List (JobId × Time))
    (released : Nat) (work : Work) :
    S.Keeps (recheckAll cfg dependents released work) := by
  induction dependents generalizing released work with
  | nil => exact .pure _
  | cons dependent rest ih =>
      apply Emits.bind recheckBlocked_keeps
      intro outcome
      cases outcome <;> exact ih _ _

theorem releaseDependents_keeps {job : JobId} {parent : Option JobId} :
    S.Keeps (releaseDependents cfg job parent) := by
  suffices ∀ fuel work seen released,
      S.Keeps (releaseLoop cfg fuel work seen released) from this _ _ _ _
  intro fuel
  induction fuel with
  | zero => exact fun _ _ _ => .diverge
  | succ fuel ih =>
      intro work seen released
      simp only [releaseLoop]
      split
      · exact .pure _
      · split
        · exact ih _ _ _
        · apply Emits.bind
          · exact .session (.bind (ancestorIds_keeps _ _ _) fun _ =>
              .read _)
          · intro dependents
            exact .bind (recheckAll_keeps _ _ _) fun _ => ih _ _ _

theorem releaseDependentsQuietly_keeps {job : JobId}
    {parent : Option JobId} :
    S.Keeps (releaseDependentsQuietly cfg job parent) :=
  .quietly releaseDependents_keeps

theorem recheckBlockedQuietly_keeps {job : JobId} {createdAt : Time} :
    S.Keeps (recheckBlockedQuietly cfg job createdAt) :=
  .quietly recheckBlocked_keeps

/-! ## Claims -/

theorem overLimit_keeps {now : Time} (tags : List String) :
    S.Keeps (overLimit cfg now tags) := by
  induction tags with
  | nil => exact .pure _
  | cons tag rest ih =>
      simp only [overLimit]
      apply Emits.bind
      · unfold overConcurrency
        split
        · exact .pure _
        · exact .bind (.read _) fun _ => .pure _
      · intro concurrency
        split
        · exact .pure _
        · apply Emits.bind
          · unfold overRate
            split
            · exact .bind (.read _) fun _ => .pure _
            · exact .pure _
          · intro rate
            split
            · exact .pure _
            · exact ih

theorem tryTagLocks_keeps (tags : List String) :
    S.Keeps (tryTagLocks tags) := by
  induction tags with
  | nil => exact .pure _
  | cons tag rest ih =>
      apply Emits.bind
      · apply keeps_exec
        intro snapshot current others effect ran
        split at ran <;> cases ran <;> simp
      · intro locked
        cases locked
        · exact .pure _
        · exact ih

theorem tagLimited_keeps {job : Job} {now : Time} :
    S.Keeps (tagLimited cfg job now) := by
  simp only [tagLimited]
  split
  · exact .pure _
  · apply Emits.bind
    · unfold lockTags
      split
      · exact tryTagLocks_keeps _
      · exact .pure _
    · intro locked
      cases locked
      · exact .pure _
      · exact overLimit_keeps _

theorem claimDecision_keeps {job : Job} {now : Time} :
    S.Keeps (claimDecision cfg job now) := by
  simp only [claimDecision]
  split
  · exact .bind failQueued_keeps fun _ => .pure _
  · split
    · exact .pure _
    · apply Emits.bind judge_keeps
      intro verdict
      split
      · exact .bind failQueued_keeps fun _ => .pure _
      · exact .pure _
      · exact .pure _

theorem takeEntry_keeps {entry : Ready} {job : Job}
    {worker : Option WorkerId} {now : Time} :
    S.Keeps (takeEntry cfg entry job worker now) := by
  apply Emits.bind deleteReadyWhere_keeps
  intro deleted
  split
  · exact .bind .commit fun _ => .pure _
  · apply Emits.bind startAttempt_keeps
    intro started
    split
    · exact .bind .commit fun _ => .pure _
    · exact .bind .rollback fun _ => .pure _
    · exact .bind .commit fun _ => .pure _

theorem moveToBlocked_keeps {entry : Ready} {job : Job} {now : Time} :
    S.Keeps (moveToBlocked cfg entry job now) := by
  simp only [moveToBlocked]
  split
  · exact .pure _
  · apply Emits.bind deleteReadyWhere_keeps
    intro deleted
    split
    · exact .bind insertBlockedStmt_keeps fun _ => .pure _
    · exact .pure _

theorem claimCandidate_keeps {entry : Ready} {job : Job}
    {worker : Option WorkerId} {now : Time} :
    S.Keeps (claimCandidate cfg entry job worker now) := by
  apply Emits.bind claimDecision_keeps
  intro decision
  cases decision with
  | ok =>
      apply Emits.bind tagLimited_keeps
      intro limited
      cases limited
      · exact takeEntry_keeps
      · exact .bind .commit fun _ => .pure _
  | pending =>
      exact .bind (.read _) fun _ => .bind moveToBlocked_keeps fun _ =>
        .bind .commit fun _ => .pure _
  | expired =>
      exact .bind deleteReadyWhere_keeps fun _ =>
        .bind .commit fun _ => .pure _
  | failed =>
      exact .bind deleteReadyWhere_keeps fun _ =>
        .bind .commit fun _ => .pure _

theorem claimRound_keeps {queues : List String} {now : Time} {byId : Bool}
    {candidate : Ready → Job → Sql Round} {cursor : Option Cursor}
    (judges : ∀ entry job, S.Keeps (candidate entry job)) :
    S.Keeps (claimRound cfg queues now byId candidate cursor) := by
  apply Emits.bind
  · unfold nextEntryStmt
    split
    · exact .bind (keeps_locking fun _ _ _ _ ran => by
        cases ran; exact ⟨rfl, rfl⟩) fun _ => .pure _
    · exact .read _
  · intro entry
    cases entry with
    | none => exact .bind .commit fun _ => .pure _
    | some entry =>
        apply Emits.bind
        · apply Emits.bind (.read _)
          intro found
          cases found with
          | some job => exact .pure _
          | none =>
              dsimp only
              split
              · exact .read _
              · exact .pure _
        · intro found
          apply Emits.bind ifWaiting_keeps
          intro waiting
          cases waiting with
          | none =>
              exact .bind deleteReadyWhere_keeps fun _ =>
                .bind .commit fun _ => .pure _
          | some job => exact judges entry job

theorem claimLoop_keeps {round : Option Cursor → Sql Round}
    (judges : ∀ cursor, S.Keeps (round cursor)) (fuel : Nat)
    (cursor : Option Cursor) (trail : Trail) :
    (claimLoop round fuel cursor trail).Emits S.sees S.emits Aside
      fun _ => True := by
  induction fuel generalizing cursor trail with
  | zero => trivial
  | succ fuel ih =>
      apply Prog.Emits.bind (judges cursor)
      intro result _
      cases result with
      | error exception => trivial
      | ok round =>
          cases round with
          | stop claimed => trivial
          | again next blocked failed => exact ih _ _

theorem claimJob_keeps {queues : List String} {worker : String} :
    S.Keeps (claimJob cfg queues worker) := by
  apply Emits.bind (.read _)
  intro now
  apply Prog.Emits.bind
  · exact claimLoop_keeps (fun _ => claimRound_keeps fun _ _ =>
      claimCandidate_keeps) _ _ _
  · intro outcome _
    have followed : S.Keeps (followUp cfg outcome.2) :=
      .bind (.each fun _ _ => recheckBlockedQuietly_keeps) fun _ =>
        .each fun _ _ => releaseDependentsQuietly_keeps
    exact Prog.Emits.bind followed fun _ _ => Emits.done _

theorem claimJobById_keeps {job : JobId} {worker : String} :
    S.Keeps (claimJobById cfg job worker) := by
  apply Emits.session
  apply Emits.bind
  · unfold lockEntries
    split
    · apply Emits.bind
      · exact keeps_locking fun _ _ _ _ ran => by
          cases ran; exact ⟨rfl, rfl⟩
      · intro held
        dsimp only
        split
        · exact .bind (.read _) fun _ => .pure _
        · exact .pure _
    · exact .pure _
  · intro locked
    cases locked
    · exact .bind .commit fun _ => .pure _
    · apply Emits.bind (.read _)
      intro found
      apply Emits.bind ifWaiting_keeps
      intro waiting
      cases waiting with
      | none => exact .bind .commit fun _ => .pure _
      | some row =>
          refine .bind deleteReadyWhere_keeps fun _ =>
            .bind deleteBlockedStmt_keeps fun _ => .bind (.read _) fun _ =>
              .bind startAttempt_keeps fun started => ?_
          split
          · exact .bind .commit fun _ => .pure _
          · exact .bind .rollback fun _ => .pure _

theorem atomicClaimJob_keeps {job : Job} {worker : Option WorkerId} :
    S.Keeps (atomicClaimJob cfg job worker) := by
  apply Emits.session
  apply Emits.bind deleteReadyWhere_keeps
  intro deleted
  split
  · exact .bind .commit fun _ => .pure _
  · refine .bind (.read _) fun _ => .bind startAttempt_keeps fun started => ?_
    split
    · exact .bind .commit fun _ => .pure _
    · exact .bind .rollback fun _ => .pure _
    · exact .bind .commit fun _ => .pure _

theorem registeredWorkerId_keeps {worker : String} :
    S.Keeps (registeredWorkerId cfg worker) := by
  unfold registeredWorkerId
  split
  · exact .pure _
  · exact .read _

theorem aclaimJob_keeps {queues : List String} {worker : String} :
    S.Keeps (aclaimJob cfg queues worker) := by
  apply Emits.bind (.read _)
  intro now
  apply Emits.session
  apply Emits.bind registeredWorkerId_keeps
  intro owner
  exact Prog.Emits.bind (claimLoop_keeps (fun _ => claimRound_keeps
    fun _ _ => takeEntry_keeps) _ _ _) fun _ _ => Emits.done _

theorem amarkRunning_keeps {job : JobId} {worker : String} :
    S.Keeps (amarkRunning cfg job worker) := by
  apply Emits.bind (.read _)
  intro now
  apply Emits.session
  apply Emits.bind (.read _)
  intro found
  cases found with
  | none => exact .pure _
  | some row =>
      refine .bind deleteReadyWhere_keeps fun _ =>
        .bind deleteBlockedStmt_keeps fun _ =>
          .bind registeredWorkerId_keeps fun _ =>
            .bind startAttempt_keeps fun started => ?_
      split
      · exact .commit
      · exact .rollback

theorem blockJob_keeps {job : Job} : S.Keeps (blockJob cfg job) := by
  apply Emits.bind
  · apply Emits.session
    apply Emits.bind (.read _)
    intro now
    dsimp only
    split
    · exact .pure _
    · apply Emits.bind deleteReadyWhere_keeps
      intro deleted
      split
      · exact .bind .commit fun _ => .pure _
      · exact .bind insertBlockedStmt_keeps fun _ =>
          .bind .commit fun _ => .pure _
  · intro moved
    exact .bind (.whenever recheckBlockedQuietly_keeps) fun _ => .pure _

end Statements

end Sqlery.Standalone
