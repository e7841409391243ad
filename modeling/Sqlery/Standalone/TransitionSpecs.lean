import Sqlery.Standalone.Filing

/-!
# Specifications of the transitions

The helpers that run inside a caller's transaction, and the re-judging of
blocked jobs, keep transactions lawful whichever call uses them.
-/

namespace Sqlery.Standalone

open ReadCommitted
open Script

section Helpers

variable {cfg : Config} {call : Call} {record : Record} {txn : Txn}

theorem Inner.currentTime : Inner cfg call currentTime :=
  Inner.read _

theorem Inner.openAttemptsIn (job : JobId) :
    Inner cfg call (openAttemptsIn job) :=
  Inner.read _

theorem Inner.deleteReadyWhere (admits : Ready → Bool) :
    Inner cfg call (deleteReadyWhere cfg admits) :=
  Inner.bind (Inner.exec (makes_dml Db.ready _ fun _ => rfl)) fun _ =>
    Inner.pure _

theorem Inner.deleteEntryStmt (slot : Nat) (job : JobId) :
    Inner cfg call (deleteEntryStmt cfg slot job) :=
  Inner.deleteReadyWhere _

theorem Inner.deleteReadyStmt (jobs : List JobId) :
    Inner cfg call (deleteReadyStmt cfg jobs) :=
  Inner.deleteReadyWhere _

theorem Inner.deleteBlockedStmt (jobs : List JobId) :
    Inner cfg call (deleteBlockedStmt cfg jobs) :=
  Inner.bind (Inner.exec (makes_dml Db.blocked _ fun _ => rfl)) fun _ =>
    Inner.pure _

theorem Inner.insertBlockedStmt (rows : List Blocked) :
    Inner cfg call (insertBlockedStmt cfg rows) :=
  Inner.exec (makes_insert Db.blocked _ (fun _ _ => rfl) fun _ _ => rfl)

theorem Inner.dropEntries (jobs : List JobId) :
    Inner cfg call (dropEntries cfg jobs) :=
  Inner.bind (Inner.deleteReadyStmt jobs) fun _ =>
    Inner.bind (Inner.deleteBlockedStmt jobs) fun _ => Inner.pure ()

/-- A deletion of entries makes the transaction the writer. -/
theorem deleteReadyWhere_writes (admits : Ready → Bool) :
    (backend cfg).Spec call (Between cfg call record)
      (deleteReadyWhere cfg admits)
      (fun _ => At cfg call record (writing cfg)) (Recorded call record) := by
  have deletes : (backend cfg).Spec call (Between cfg call record)
      (exec (dml Db.ready cfg (fun _ => admits)
        fun entry => .deleteReady entry.slot entry.jobId) : Sql (List Ready))
      (fun _ => At cfg call record (writing cfg)) (Recorded call record) := by
    refine (makes_spec (makes_dml Db.ready _ fun _ => rfl)
      (fun _ isPlain => isPlain) (fun _ isPlain => isPlain)
      fun _ isFiled => by cases isFiled).strengthen ?_ fun _ _ _ holds => holds
    exact fun _ db state _ holds => holds
  exact inside deletes fun _ => .pure at_stable fun _ _ _ _ holds => holds

/-- Inside the transaction of a claim, after its first write. -/
theorem Inner.writing {β : Type} {script : Sql β}
    (inner : Inner cfg call script) :
    (backend cfg).Spec call (At cfg call record (writing cfg)) script
      (fun _ => At cfg call record (writing cfg)) (Recorded call record) :=
  inner record (Standalone.writing cfg) (fun _ isPlain => isPlain)
    fun _ isFiled => by cases isFiled

theorem At.between {db : Db} {state : Loc}
    (holds : At cfg call record (writing cfg) db state) :
    Between cfg call record db state :=
  holds.mono (fun _ isKind => isKind) rfl rfl (fun _ member => member)
    fun _ member => by cases member

theorem Inner.ifWaiting (found : Option Job) :
    Inner cfg call (ifWaiting found) := by
  unfold Standalone.ifWaiting
  cases found with
  | none => exact Inner.pure none
  | some job =>
      dsimp only
      split
      · exact Inner.pure none
      · exact Inner.bind (Inner.read _) fun _ => Inner.pure _

/-! ## Dependencies -/

theorem Inner.newestRetry {latest : JobId → Sql (Option Job)}
    (reads : ∀ job, Inner cfg call (latest job)) (hops : Nat) (dep : Job) :
    Inner cfg call (newestRetry latest hops dep) := by
  induction hops generalizing dep with
  | zero => exact Inner.pure dep
  | succ hops ih =>
      unfold Sqlery.newestRetry
      split
      · refine Inner.bind (reads _) fun found => ?_
        cases found with
        | none => exact Inner.pure dep
        | some child => exact ih child
      · exact Inner.pure dep

theorem Inner.judgeFrom {latest : JobId → Sql (Option Job)}
    (reads : ∀ job, Inner cfg call (latest job))
    (fetch : JobId → Option Job) (deps failed : List JobId) (pending : Bool) :
    Inner cfg call (judgeFrom fetch latest deps failed pending) := by
  induction deps generalizing failed pending with
  | nil => exact Inner.pure _
  | cons depId rest ih =>
      unfold Sqlery.judgeFrom
      cases fetch depId with
      | none => exact ih _ _
      | some dep =>
          refine Inner.bind (Inner.newestRetry reads _ dep) fun newest => ?_
          split
          · exact ih _ _
          · split
            · exact ih _ _
            · exact ih _ _

theorem Inner.judge (deps : List JobId) : Inner cfg call (judge deps) :=
  Inner.bind (Inner.read _) fun _ =>
    Inner.judgeFrom (fun _ => Inner.read _) _ deps [] false

end Helpers

/-! ## Failing a queued job -/

section Fail

variable {cfg : Config} {call : Call} {record : Record}

/-- A transaction that has ended attempts and jobs and owes nothing. -/
abbrev settledTxn : Txn := { kind := settling }

theorem At.settled {db : Db} {state : Loc}
    (holds : Between cfg call record db state) :
    At cfg call record settledTxn db state :=
  holds.mono (fun _ => settling_of_plain) rfl rfl (fun _ member => member)
    fun _ member => member

/-- A move out of a transaction with plain writes, of an idle job. -/
theorem movable_idle {fence : MoveFence} {status : Status} {values : Values}
    (idle : fence.requireIdle = true) (terminal : isTerminal status = true)
    (notSuccess : status ≠ .success)
    (finishes : ∀ db, Finishes call db fence.jobId status values) :
    Movable call record fence status values {} where
  fits := fun _ => settling_of_plain
  stage := Or.inl rfl
  made := rfl
  terminal := terminal
  finishes := fun db _ _ => finishes db
  succeeds := fun isSuccess => (notSuccess isSuccess).elim
  closes := Or.inr ⟨idle, rfl⟩

theorem failQueued_spec (job : Job) (error reason : String) (now : Time)
    (refusal : Refusal call job.id error reason) :
    (backend cfg).Spec call (Between cfg call record)
      (failQueued cfg job error reason now)
      (fun moved => if moved then At cfg call record settledTxn
        else Between cfg call record) (Recorded call record) := by
  unfold failQueued
  refine inside ((Inner.deleteReadyStmt [job.id]).trans record) fun _ => ?_
  refine inside ((Inner.deleteBlockedStmt [job.id]).trans record) fun _ => ?_
  exact finishIn_spec (movable_idle rfl rfl (by simp) fun _ =>
    .refused error reason now refusal)

theorem failQueued_settled (job : Job) (error reason : String) (now : Time)
    (refusal : Refusal call job.id error reason) :
    (backend cfg).Spec call (Between cfg call record)
      (failQueued cfg job error reason now)
      (fun _ => At cfg call record settledTxn) (Recorded call record) := by
  refine (failQueued_spec job error reason now refusal).strengthen ?_
    fun _ _ _ holds => holds
  intro moved db state _ holds
  cases moved with
  | true => exact holds
  | false => exact At.settled holds

theorem commit_settled {fails : Db → Loc → Prop} :
    (backend cfg).Spec call (At cfg call record settledTxn)
      (commit : Sql Unit) (fun _ => Between cfg call record) fails :=
  commit_spec rfl rfl

end Fail

/-! ## Blocked jobs -/

section Blocked

variable {cfg : Config} {call : Call}

theorem Outer.recheckBlocked (jobId : JobId) (createdAt : Time) :
    Outer cfg call (recheckBlocked cfg jobId createdAt) := by
  refine Trans.session ?_
  refine Trans.bind (Inner.read _).trans fun found => ?_
  refine Trans.bind (Inner.ifWaiting found).trans fun waiting => ?_
  cases waiting with
  | none =>
      refine Trans.bind (Inner.deleteBlockedStmt _).trans fun _ => ?_
      exact Trans.bind Trans.commit fun _ => Trans.pure _
  | some job =>
      refine Trans.bind (Inner.judge _).trans fun verdict => ?_
      cases verdict.state with
      | pending => exact Trans.bind Trans.commit fun _ => Trans.pure _
      | failed =>
          refine Trans.bind Inner.currentTime.trans fun now => ?_
          intro record
          refine inside (failQueued_settled _ _ _ _ (.dependencies _))
            fun _ => ?_
          exact inside commit_settled fun _ => Trans.pure _ record
      | met =>
          refine Trans.bind (Inner.deleteBlockedStmt _).trans fun _ => ?_
          refine Trans.bind (Inner.writeReady _ _).trans fun _ => ?_
          exact Trans.bind Trans.commit fun _ => Trans.pure _

theorem Inner.ancestorIds (hops : Nat) (ids : List JobId)
    (parent : Option JobId) :
    Inner cfg call (ancestorIds hops ids parent) := by
  induction hops generalizing ids parent with
  | zero => exact Inner.pure ids
  | succ hops ih =>
      unfold Standalone.ancestorIds
      cases parent with
      | none => exact Inner.pure ids
      | some job =>
          dsimp only
          split
          · exact Inner.pure ids
          · exact Inner.bind (Inner.read _) fun next => ih _ next

theorem Outer.dependentsOf (jobId : JobId) (parent : Option JobId) :
    Outer cfg call (dependentsOf jobId parent) :=
  Trans.session (Inner.bind (Inner.ancestorIds _ _ _) fun _ =>
    Inner.read _).trans

theorem Outer.recheckAll (dependents : List (JobId × Time)) (released : Nat)
    (work : Work) :
    Outer cfg call (recheckAll cfg dependents released work) := by
  induction dependents generalizing released work with
  | nil => exact Outer.pure _
  | cons dependent rest ih =>
      unfold Standalone.recheckAll
      refine Outer.bind (Outer.recheckBlocked _ _) fun outcome => ?_
      cases outcome with
      | ready => exact ih _ _
      | failed => exact ih _ _
      | blocked => exact ih _ _
      | gone => exact ih _ _

theorem Outer.releaseLoop (fuel : Nat) (work : Work) (seen : List JobId)
    (released : Nat) :
    Outer cfg call (releaseLoop cfg fuel work seen released) := by
  induction fuel generalizing work seen released with
  | zero => exact Outer.diverge
  | succ fuel ih =>
      unfold Standalone.releaseLoop
      cases work.getLast? with
      | none => exact Outer.pure released
      | some current =>
          dsimp only
          split
          · exact ih _ _ _
          · refine Outer.bind (Outer.dependentsOf _ _) fun dependents => ?_
            refine Outer.bind (Outer.recheckAll _ _ _) fun next => ?_
            exact ih _ _ _

theorem Outer.releaseDependents (jobId : JobId) (parent : Option JobId) :
    Outer cfg call (releaseDependents cfg jobId parent) :=
  Outer.releaseLoop _ _ _ _

theorem Outer.releaseDependentsQuietly (jobId : JobId)
    (parent : Option JobId) :
    Outer cfg call (releaseDependentsQuietly cfg jobId parent) :=
  (Outer.releaseDependents jobId parent).quietly

theorem Outer.recheckBlockedQuietly (jobId : JobId) (createdAt : Time) :
    Outer cfg call (recheckBlockedQuietly cfg jobId createdAt) :=
  (Outer.recheckBlocked jobId createdAt).quietly

end Blocked

end Sqlery.Standalone
