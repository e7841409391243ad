import Sqlery.ReadCommitted.Extension
import Sqlery.Standalone.Sparing
import Sqlery.Standalone.Verified

/-!
# Rechecks and running jobs

The rechecks of both backends beside every other call.  `_recheck_blocked` ends
no running job.  `_arecheck_blocked` looks at the status of the row, which a
claim leaves alone: a job that is claimed in spite of its entry, or while the
recheck is at work, is moved to history from under its worker.  It spares what
runs as long as claims and asynchronous rechecks of one job keep apart.
-/

namespace Sqlery.Standalone

open ReadCommitted
open Script

/-! ## The asynchronous transactions are lawful -/

section Specs

variable {cfg : Config} {call : Call}

theorem Inner.fetchLevel (deps : List Job)
    (known : List (JobId × Option Job)) (next : List Job) :
    Inner cfg call (fetchLevel deps known next) := by
  induction deps generalizing known next with
  | nil => exact Inner.pure _
  | cons dep rest ih => exact Inner.bind (Inner.read _) fun _ => ih _ _

theorem Inner.fetchRetries (hops : Nat) (frontier : List Job)
    (known : List (JobId × Option Job)) :
    Inner cfg call (fetchRetries hops frontier known) := by
  induction hops generalizing frontier known with
  | zero => exact Inner.pure _
  | succ hops ih =>
      simp only [Standalone.fetchRetries]
      split
      · exact Inner.pure _
      · exact Inner.bind (Inner.fetchLevel _ _ _) fun _ => ih _ _

theorem Inner.ajudge (deps : List JobId) : Inner cfg call (ajudge deps) :=
  Inner.bind (Inner.read _) fun _ =>
    Inner.bind (Inner.fetchRetries _ _ _) fun _ =>
      Inner.judgeFrom (fun _ => Inner.pure _) _ deps [] false

theorem Inner.selectBlocked (jobId : JobId) (createdAt : Time) :
    Inner cfg call (selectBlocked jobId createdAt) := by
  intro record txn _ _
  refine .observe at_stable (fun _ => at_stable) ?_
  intro db state _ _ holds
  refine ⟨⟨?_, ?_, ?_⟩, holds.note _⟩
  · intro job member
    split at member <;> simp at member
  · intro job
    split <;> simp [lookedUp]
  · intro job id member
    split at member <;> simp at member

/-- The move does not ask for an idle job, and closes what is open of it. -/
theorem Outer.arecheckBlocked (quiet : call.sweeps = false) (jobId : JobId)
    (createdAt : Time) :
    Outer cfg call (arecheckBlocked cfg jobId createdAt) := by
  apply Trans.session
  apply Trans.bind (Inner.selectBlocked _ _).trans
  intro found
  cases found with
  | none =>
      apply Trans.bind (Inner.deleteBlockedStmt _).trans
      exact fun _ => Trans.bind Trans.commit fun _ => Trans.pure _
  | some job =>
      apply Trans.bind (Inner.ajudge _).trans
      intro verdict
      cases verdict.state with
      | pending => exact Trans.bind Trans.commit fun _ => Trans.pure _
      | failed =>
          apply Trans.bind (Inner.deleteReadyStmt _).trans
          intro _
          apply Trans.bind (Inner.deleteBlockedStmt _).trans
          intro _
          apply Trans.bind Inner.currentTime.trans
          intro now record
          refine .weaken (inside (finishSettled_spec rfl
            (fun _ _ _ => .refused _ _ now (.dependencies _))
            (fun isSuccess => by cases isSuccess) (judged_of_quiet quiet _))
            fun _ => ?_) fun _ _ _ holds => At.settled holds
          exact inside commit_settled fun _ => Trans.pure _ record
      | met =>
          apply Trans.bind (Inner.deleteBlockedStmt _).trans
          intro _
          apply Trans.bind (Inner.writeReady _ _).trans
          exact fun _ => Trans.bind Trans.commit fun _ => Trans.pure _

theorem Outer.adependentsOf (jobId : JobId) (parent : Option JobId) :
    Outer cfg call (adependentsOf jobId parent) := by
  apply Trans.session
  apply Trans.bind
  · cases parent with
    | none => exact (Inner.read _).trans
    | some parent => exact Trans.pure _
  · intro parent
    exact (Inner.bind (Inner.ancestorIds _ _ _) fun _ => Inner.read _).trans

theorem Outer.arecheckAll (quiet : call.sweeps = false)
    (dependents : List (JobId × Time)) (released : Nat) (work : Work) :
    Outer cfg call (arecheckAll cfg dependents released work) := by
  induction dependents generalizing released work with
  | nil => exact Outer.pure _
  | cons dependent rest ih =>
      apply Outer.bind (Outer.arecheckBlocked quiet _ _)
      intro outcome
      cases outcome with
      | ready => exact ih _ _
      | failed => exact ih _ _
      | blocked => exact ih _ _
      | gone => exact ih _ _

theorem Outer.areleaseDependents (quiet : call.sweeps = false)
    (jobId : JobId) (parent : Option JobId) :
    Outer cfg call (areleaseDependents cfg jobId parent) := by
  suffices ∀ fuel work seen released,
      Outer cfg call (areleaseLoop cfg fuel work seen released) from
    this _ _ _ _
  intro fuel
  induction fuel with
  | zero => exact fun _ _ _ => Outer.diverge
  | succ fuel ih =>
      intro work seen released
      simp only [areleaseLoop]
      split
      · exact Outer.pure _
      · split
        · exact ih _ _ _
        · apply Outer.bind (Outer.adependentsOf _ _)
          intro dependents
          apply Outer.bind (Outer.arecheckAll quiet _ _ _)
          exact fun next => ih _ _ _

end Specs

/-! ## The system -/

/-- The calls of the synchronous backend, with the claims of both, and the
releases of the asynchronous one. -/
inductive ReleaseCall where
  | call (call : Call)
  | areleaseDependents (jobId : JobId) (parent : Option JobId)
  | arecheckBlocked (jobId : JobId) (createdAt : Time)
  deriving DecidableEq

/-- The synchronous call that does the same. -/
def ReleaseCall.twin : ReleaseCall → Call
  | .call same => same
  | .areleaseDependents jobId parent => .releaseDependents jobId parent
  | .arecheckBlocked jobId createdAt => .recheckBlocked jobId createdAt

/-- The call does nothing but recheck blocked jobs. -/
def ReleaseCall.rechecks (call : ReleaseCall) : Bool :=
  match call.twin with
  | .releaseDependents _ _ => true
  | .recheckBlocked _ _ => true
  | _ => false

def ReleaseCall.asynchronous : ReleaseCall → Bool
  | .call _ => false
  | .areleaseDependents _ _ => true
  | .arecheckBlocked _ _ => true

def releaseScript (cfg : Config) : ReleaseCall → Sql Result
  | .call call => scriptOf cfg call
  | .areleaseDependents jobId parent =>
      .count <$> areleaseDependents cfg jobId parent
  | .arecheckBlocked jobId createdAt =>
      .rechecked <$> arecheckBlocked cfg jobId createdAt

/-- What a recheck promises beyond its twin. -/
def rechecksSpare (cfg : Config) (call : ReleaseCall) (db : Db) (state : Loc) :
    Prop :=
  call.rechecks = true → Sparing cfg (!call.asynchronous) db state

def releaseCalls (cfg : Config) :
    Setting.Extension (backend cfg) ReleaseCall where
  body call := (releaseScript cfg call).run
  like := ReleaseCall.twin
  beyond := rechecksSpare cfg

/-- The backends over one database. -/
abbrev releases (cfg : Config) : System Db Write Lock ReleaseCall Return :=
  (releaseCalls cfg).sys

section Verified

variable {cfg : Config}

theorem releaseScript_spec (call : ReleaseCall) :
    (backend cfg).Spec call.twin (Between cfg call.twin {})
      (releaseScript cfg call) (Returned cfg call.twin)
      (Loose cfg call.twin {}) := by
  cases call with
  | call call => exact scriptOf_spec cfg call
  | areleaseDependents jobId parent =>
      exact returns_outer (fun _ => rfl)
        (Outer.areleaseDependents rfl jobId parent)
  | arecheckBlocked jobId createdAt =>
      exact returns_outer (fun _ => rfl)
        (Outer.arecheckBlocked rfl jobId createdAt)

theorem Sparingly.map {asks : Bool} {α β : Type} {first : Sql β}
    {result : β → α}
    (begins : Sparingly cfg asks first) :
    Sparingly cfg asks (result <$> first) :=
  Setting.Yields.map rechecking_chains (fun _ => Setting.Lasts.local)
    (fun _ => Setting.Lasts.local) begins

theorem releaseScript_sparingly {call : ReleaseCall}
    (rechecks : call.rechecks = true) :
    Sparingly cfg (!call.asynchronous) (releaseScript cfg call) := by
  cases call with
  | areleaseDependents jobId parent => exact .map areleaseDependents_sparingly
  | arecheckBlocked jobId createdAt => exact .map arecheckBlocked_sparingly
  | call call =>
      cases call with
      | releaseDependents jobId parent => exact .map releaseDependents_sparingly
      | recheckBlocked jobId createdAt => exact .map recheckBlocked_sparingly
      | _ => cases rechecks

theorem releases_verified (cfg : Config) :
    (releaseCalls cfg).setting.Verified
      fun call => Returns cfg call.twin := by
  intro call db state inv guarded isInitial
  subst isInitial
  have safe : (backend cfg).Safe call.twin (Returns cfg call.twin)
      (releaseScript cfg call).run db {} := by
    refine Setting.Safe.mono ?_
      (releaseScript_spec call db {} inv guarded (at_initial db))
    intro value db state _ holds
    cases value with
    | ok result => exact holds
    | error exception => exact holds
  cases rechecks : call.rechecks with
  | false =>
      apply Setting.Extension.safe ?_ safe
      intro db state isRecheck
      rw [rechecks] at isRecheck
      cases isRecheck
  | true =>
      have spares : Sparingly cfg (!call.asynchronous)
        (releaseScript cfg call) :=
        releaseScript_sparingly rechecks
      have ends := spares db {} ⟨inv, trivial⟩ guarded (entries_of_idle rfl)
      exact Setting.Extension.safe_of_ends (fun _ => trivial)
        (fun _ _ => trivial) (fun _ _ spares _ => spares) guarded ends safe

end Verified

/-! ## What a recheck leaves of a running job -/

/-- The live row of the job, its history and its attempts are what they
were. -/
structure Unharmed (job : JobId) (before after : Db) : Prop where
  live : after.live.get job = before.live.get job
  history : ∀ row : Job, row.id = job →
    (row ∈ after.history.rows ↔ row ∈ before.history.rows)
  attempts : ∀ attempt : Attempt, attempt.jobId = job →
    (attempt ∈ after.attempts.rows ↔ attempt ∈ before.attempts.rows)

theorem unharmed_of_sameTables {job : JobId} {first second : Db}
    (same : SameTables first second) : Unharmed job first second where
  live := by rw [same.live]
  history := fun row _ => by rw [same.history]
  attempts := fun attempt _ => by rw [same.attempts]

section Commit

variable {cfg : Config} {call : Call} {stage : Stage} {db : Db} {state : Loc}

/-- The entry of a job is neither its row nor its attempt. -/
theorem entry_apart {write : Write} {lock : Lock}
    (isEntry : write.isEntry = true) (isLock : write.rowLock = some lock) :
    (∀ job, lock ≠ .live job) ∧ ∀ id, lock ≠ .attempt id := by
  constructor
  · intro job same
    subst same
    cases write <;> first | (cases isLock; done) | cases isEntry
  · intro id same
    subst same
    cases write <;> first | (cases isLock; done) | cases isEntry

/-- A transaction that moves idle jobs closes nothing. -/
theorem closes_nothing (lawful : Lawful cfg.dialect call stage db state)
    (writes : Recheckings state)
    (idle : ∀ job, .deleteLive job ∈ state.pending →
      db.hasOpenAttempt job = false)
    (id : AttemptId) (job : JobId) (now : Time) (outcome : Outcome) :
    .closeAttempt id job now outcome ∉ state.pending := by
  intro member
  obtain ⟨attempt, found, runs⟩ := lawful.closed id job now outcome member
  obtain ⟨isJob, isOpen⟩ := runs_iff.mp runs
  have isIdle := idle job (writes.closes id job now outcome member)
  exact hasOpenAttempt_eq_false.mp isIdle attempt (Table.mem_of_get found)
    isOpen isJob

/-- A recheck that moves idle jobs leaves a running one alone. -/
theorem unharmed_of_idle (lawful : Lawful cfg.dialect call stage db state)
    (complete : stage.complete = true) (writes : Recheckings state)
    (idle : ∀ job, .deleteLive job ∈ state.pending →
      db.hasOpenAttempt job = false) {job : JobId}
    (running : db.hasOpenAttempt job = true) :
    Unharmed job db (after state.pending db) := by
  have undeleted : .deleteLive job ∉ state.pending := by
    intro member
    rw [idle job member] at running
    cases running
  have closesNone := closes_nothing lawful writes idle
  refine ⟨?_, ?_, ?_⟩
  · apply live_after_untouched
    intro write member isLock
    rcases writes.kinds write member with isEntry | ⟨row, rfl⟩ | ⟨moved, rfl⟩ |
      ⟨id, owner, now, outcome, rfl⟩
    · exact (entry_apart isEntry isLock).1 job rfl
    · cases isLock
    · cases isLock
      exact undeleted member
    · cases isLock
  · intro row isJob
    constructor
    · intro member
      rcases history_after_cases member with old | new
      · exact old
      · obtain ⟨_, _, deleted | isMoving⟩ := lawful.moved row new
        · rw [isJob] at deleted
          exact (undeleted deleted).elim
        · rw [isMoving] at complete
          cases complete
    · exact history_after_kept
  · have same : ∀ id, (after state.pending db).attempts.get id =
        db.attempts.get id := by
      intro id
      apply attempts_after_untouched
      intro write member isLock
      rcases writes.kinds write member with isEntry | ⟨row, rfl⟩ |
        ⟨moved, rfl⟩ | ⟨closed, owner, now, outcome, rfl⟩
      · exact (entry_apart isEntry isLock).2 id rfl
      · cases isLock
      · cases isLock
      · exact closesNone closed owner now outcome member
    intro attempt _
    constructor
    · intro member
      exact Table.mem_of_get ((same _).symm.trans (Table.get_of_mem member))
    · intro member
      exact Table.mem_of_get ((same _).trans (Table.get_of_mem member))

end Commit

/-! ## Runs -/

abbrev Releases (n : Nat) := State Db Write Lock ReleaseCall Return n

/-- The states the backends reach from a fresh database. -/
def ReleasesReach (cfg : Config) {n : Nat}
    (allowed : Releases n → Action Write ReleaseCall n → Prop)
    (state : Releases n) : Prop :=
  ∃ tasks workers clock, (releases cfg).Reaches allowed
    (System.initial (installed tasks workers clock)) state

/-- An asynchronous recheck of the job is under way: the process has selected
its row, and neither selected that of another job since nor ended its call. -/
def Rechecking {n : Nat} (state : Releases n) (process : Fin n)
    (job : JobId) : Prop :=
  (state.session process).prog.idle = false ∧
    (state.session process).state.noted.getLast? =
      some (.remark (.rechecks job))

instance {n : Nat} (state : Releases n) (process : Fin n) (job : JobId) :
    Decidable (Rechecking state process job) :=
  inferInstanceAs (Decidable (_ ∧ _))

/-- No asynchronous recheck selects a job that is running, and no claim of a
job is committed while one is under way. -/
structure Apart (cfg : Config) {n : Nat} (state : Releases n)
    (action : Action Write ReleaseCall n) : Prop where
  begins : ∀ process remarks,
    (releases cfg).remarking state action = some (process, remarks) →
    ∀ job, .remark (.rechecks job) ∈ remarks →
      state.db.hasOpenAttempt job = false
  claims : ∀ claimer call,
    System.committing state action = some (claimer, call) → ∀ attempt,
    .insertAttempt attempt ∈ (state.session claimer).state.pending →
    ∀ process, ¬Rechecking state process attempt.jobId

/-- No step of a recheck harms a running job. -/
def SparesRunningJobs (cfg : Config) {n : Nat} (state : Releases n) : Prop :=
  ∀ process call next, (state.session process).call = some call →
    call.rechecks = true →
    (releases cfg).act state (.step process) = some next →
    ∀ job, state.db.hasOpenAttempt job = true →
      Unharmed job state.db next.db

section Runs

variable {cfg : Config} {n : Nat} {state next : Releases n}
variable {action : Action Write ReleaseCall n}

theorem releases_drift {first second : Db}
    (drifts : (releaseCalls cfg).setting.Drifts action first second) :
    SameTables first second := by
  cases drifts with
  | same isSame => exact isSame ▸ .refl _
  | instant call local_ writes promised isAfter =>
      exact isAfter ▸ sameTables_after promised _
  | ambient write _ isAmbient isAfter =>
      exact isAfter ▸
        sameTables_apply (isCounter_of_isAmbient isAmbient) _

/-- What is rechecked without asking is idle. -/
def HandsIdle (state : Releases n) : Prop :=
  ∀ process job, Rechecking state process job →
    state.db.hasOpenAttempt job = false

/-- A commit that opens no attempt of the job leaves it idle. -/
theorem idle_after {db : Db} {writes : List Write} {job : JobId}
    (idle : db.hasOpenAttempt job = false)
    (opens : ∀ attempt, .insertAttempt attempt ∈ writes →
      attempt.jobId ≠ job) :
    (after writes db).hasOpenAttempt job = false := by
  rw [hasOpenAttempt_eq_false] at idle ⊢
  intro attempt stored isOpen isJob
  obtain ⟨old, origin, sameJob, isOld⟩ :=
    attempts_after_cases (Table.get_of_mem stored)
  rcases isOld with rfl | isClosed
  · rcases origin with found | ⟨inserted, _⟩
    · exact idle attempt (Table.mem_of_get found) isOpen isJob
    · exact opens attempt inserted isJob
  · rw [isOpen] at isClosed
    cases isClosed

/-- A job whose recheck is under way after a commit was being rechecked
before. -/
theorem rechecking_commit {committer : Fin n} {call : ReleaseCall}
    (commits : (releaseCalls cfg).setting.Commits state next action committer
      call) {process : Fin n} {job : JobId}
    (rechecking : Rechecking next process job) :
    Rechecking state process job := by
  by_cases same : process = committer
  · subst same
    obtain ⟨rest, isCommit⟩ := commits.isCommit
    have noted := rechecking.2
    rw [commits.committed] at noted
    exact ⟨by rw [isCommit]; rfl, noted⟩
  · unfold Rechecking at rechecking
    rw [commits.others process same] at rechecking
    exact rechecking

/-- Without a commit a recheck goes on, or begins. -/
theorem rechecking_quiet
    (quiet : (releaseCalls cfg).setting.Quiet state next action)
    {process : Fin n} {job : JobId}
    (rechecking : Rechecking next process job) :
    Rechecking state process job ∨ ∃ remarks,
      (releases cfg).remarking state action = some (process, remarks) ∧
      .remark (.rechecks job) ∈ remarks := by
  obtain ⟨running, noted⟩ := rechecking
  cases quiet.sessions process with
  | rests rests =>
      left
      constructor
      · by_contra isIdle
        simp only [Bool.not_eq_false] at isIdle
        rw [rests.idle isIdle] at running
        cases running
      · rw [← rests.noted]
        exact noted
  | remarks call remarks remarking _ _ _ isNoted busy =>
      rw [isNoted] at noted
      by_cases none_ : remarks = []
      · left
        subst none_
        refine ⟨busy, ?_⟩
        simpa [Local.note] using noted
      · right
        refine ⟨remarks, remarking, ?_⟩
        simp only [Local.note, List.getLast?_append_of_ne_nil _ none_]
          at noted
        exact List.mem_of_getLast? noted
  | starts call _ _ initial =>
      rw [initial] at noted
      cases noted

theorem handsIdle_step
    (good : (releaseCalls cfg).setting.Good
      (fun call => Returns cfg call.twin) state)
    (idle : HandsIdle state) (permitted : Apart cfg state action)
    (taken : (releases cfg).act state action = some next) :
    HandsIdle next := by
  intro process job rechecking
  rcases good.act_cases taken with ⟨committer, call, commits⟩ | quiet
  · have before := rechecking_commit commits rechecking
    have isAfter : next.db = after _ state.db := commits.db
    rw [isAfter]
    apply idle_after (idle process job before)
    intro attempt inserted isJob
    apply permitted.claims committer call commits.committing attempt inserted
      process
    rw [isJob]
    exact before
  · have tables := releases_drift quiet.db
    rw [Db.hasOpenAttempt, tables.attempts]
    rcases rechecking_quiet quiet rechecking with
      before | ⟨remarks, remarking, member⟩
    · exact idle process job before
    · exact permitted.begins process remarks remarking job member

/-- A recheck at its commit spares what runs, if what is rechecked without
asking is idle. -/
theorem sparesRunning_of_idle
    (good : (releaseCalls cfg).setting.Good
      (fun call => Returns cfg call.twin) state)
    (idle : HandsIdle state) : SparesRunningJobs cfg state := by
  intro process call next isCall rechecks taken job running
  rcases good.act_cases taken with ⟨committer, other, commits⟩ | quiet
  · have same : process = committer := by
      have isStep := commits.isStep
      cases isStep
      rfl
    subst same
    have sameCall : other = call := by
      have isOther := commits.isCall
      rw [isCall] at isOther
      cases isOther
      rfl
    subst sameCall
    obtain ⟨⟨stage, complete, lawful⟩, beyond⟩ := commits.promised
    obtain ⟨rest, isCommit⟩ := commits.isCommit
    have spares : Sparing cfg (!other.asynchronous) state.db
        (state.session process).state := beyond rechecks
    have moves : ∀ moved,
        .deleteLive moved ∈ (state.session process).state.pending →
        state.db.hasOpenAttempt moved = false := by
      intro moved member
      cases asynchronous : other.asynchronous with
      | false =>
          rw [asynchronous] at spares
          exact (spares.idle rfl moved member).2
      | true =>
          rw [asynchronous] at spares
          exact idle process moved
            ⟨by rw [isCommit]; rfl, spares.told moved member rfl⟩
    rw [commits.db]
    exact unharmed_of_idle lawful complete spares.writes moves running
  · exact unharmed_of_sameTables (releases_drift quiet.db)

end Runs

/-- A recheck never ends a running job, as long as claims and asynchronous
rechecks of one job keep apart. -/
theorem recheck_spares_running (cfg : Config) {n : Nat} {state : Releases n}
    (reached : ReleasesReach cfg (Apart cfg) state) :
    SparesRunningJobs cfg state := by
  obtain ⟨tasks, workers, clock, run⟩ := reached
  have inv := inv_installed tasks workers clock
  apply sparesRunning_of_idle
    (Setting.sound (releases_verified cfg) inv run)
  apply Setting.VerifiedFor.induct
    (Setting.Verified.for (releases_verified cfg)) (fun _ _ _ _ => trivial)
    inv ?_ ?_ run
  · intro process job rechecking
    cases rechecking.1
  · intro state action next good _ idle permitted taken
    exact handsIdle_step good idle permitted taken

/-! ## A job that is claimed meanwhile -/

/-- Checks `Apart`. -/
def apart (cfg : Config) {n : Nat} (state : Releases n)
    (action : Action Write ReleaseCall n) : Bool :=
  (match (releases cfg).remarking state action with
    | some (_, remarks) => remarks.all fun
        | .remark (.rechecks job) => !state.db.hasOpenAttempt job
        | _ => true
    | none => true) &&
  match System.committing state action with
  | some (claimer, _) => (state.session claimer).state.pending.all fun
      | .insertAttempt attempt => (List.finRange n).all fun process =>
          decide (¬Rechecking state process attempt.jobId)
      | _ => true
  | none => true

theorem apart_sound {cfg : Config} {n : Nat} {state : Releases n}
    {action : Action Write ReleaseCall n}
    (checked : apart cfg state action = true) : Apart cfg state action := by
  simp only [apart, Bool.and_eq_true] at checked
  constructor
  · intro process remarks remarking job member
    have begins := checked.1
    rw [remarking] at begins
    have idle := List.all_eq_true.mp begins _ member
    simpa using idle
  · intro claimer call committing attempt member process
    have claims := checked.2
    rw [committing] at claims
    have free := List.all_eq_true.mp claims _ member
    exact of_decide_eq_true
      (List.all_eq_true.mp free process (List.mem_finRange process))

def releasesTo (cfg : Config) {n : Nat}
    (check : Releases n → Action Write ReleaseCall n → Bool)
    (actions : List (Action Write ReleaseCall n)) : Option (Releases n) :=
  (releases cfg).runWhile check (System.initial (installed .empty .empty 0))
    actions

theorem reach_releasesTo {cfg : Config} {n : Nat}
    {check : Releases n → Action Write ReleaseCall n → Bool}
    {allowed : Releases n → Action Write ReleaseCall n → Prop}
    (sound : ∀ state action, check state action = true →
      allowed state action)
    {actions : List (Action Write ReleaseCall n)}
    (ran : (releasesTo cfg check actions).isSome = true) :
    ReleasesReach cfg allowed ((releasesTo cfg check actions).get ran) :=
  ⟨.empty, .empty, 0,
    System.reaches_of_runWhile _ sound (Option.some_get ran).symm⟩

/-- The second job waits for the first, whose worker dies; the process that
fails it is killed before it releases the second. -/
def upstreamDies : List (Action Write ReleaseCall 2) :=
  Action.calls 0 (.call (.createJob {})) 13 ++
    Action.calls 0 (.call (.createJob { dependencies := [some 1] })) 13 ++
    Action.calls 0 (.call (.claimJob ["default"] "worker")) 14 ++
    Action.calls 0 (.call (.claimJob ["default"] "worker")) 21 ++
    Action.calls 0 (.call (.createJob {})) 13 ++
    Action.calls 0 (.call (.failZombieJob 1 "worker died")) 17 ++ [.crash 0]

/-- A job is claimed by its id between the asynchronous release's look at the
blocked jobs and its recheck of the second job, which is about to commit. -/
def claimedMeanwhile (job : JobId) : List (Action Write ReleaseCall 2) :=
  upstreamDies ++ Action.calls 1 (.areleaseDependents 1 none) 3 ++
    Action.calls 0 (.call (.claimJobById job "worker")) 16 ++
    List.replicate 18 (.step 1)

theorem claimedThird_ran : (releasesTo { dialect := .postgresql }
    (apart { dialect := .postgresql }) (claimedMeanwhile 3)).isSome =
      true := by
  decide +kernel

/-- The third job is claimed while the second is failed: it stays. -/
theorem recheck_spares_running_third : ∃ state : Releases 2,
    ReleasesReach { dialect := .postgresql }
      (Apart { dialect := .postgresql }) state ∧
    .deleteLive 2 ∈ (state.session 1).state.pending ∧
    state.db.hasOpenAttempt 3 = true ∧
    SparesRunningJobs { dialect := .postgresql } state := by
  have reached : ReleasesReach { dialect := .postgresql }
      (Apart { dialect := .postgresql }) _ :=
    reach_releasesTo (fun _ _ => apart_sound) claimedThird_ran
  refine ⟨_, reached, ?_, ?_, recheck_spares_running _ reached⟩
  · decide +kernel
  · decide +kernel

theorem claimedSecond_ran : (releasesTo { dialect := .postgresql }
    (fun _ _ => true) (claimedMeanwhile 2)).isSome = true := by
  decide +kernel

/-- The second job is claimed and moved to history from under its worker. -/
theorem recheck_ends_running : ¬∀ (cfg : Config) (n : Nat)
    (state : Releases n), ReleasesReach cfg System.anyStep state →
      SparesRunningJobs cfg state := by
  intro spares
  have reached : ReleasesReach { dialect := .postgresql } System.anyStep _ :=
    reach_releasesTo (fun _ _ _ => trivial) claimedSecond_ran
  have running : ((releasesTo { dialect := .postgresql } (fun _ _ => true)
      (claimedMeanwhile 2)).get claimedSecond_ran).db.hasOpenAttempt 2 =
        true := by
    decide +kernel
  have live : (((releasesTo { dialect := .postgresql } (fun _ _ => true)
      (claimedMeanwhile 2)).get claimedSecond_ran).db.live.get 2).isSome =
        true := by
    decide +kernel
  have isCall : (((releasesTo { dialect := .postgresql } (fun _ _ => true)
      (claimedMeanwhile 2)).get claimedSecond_ran).session 1).call =
        some (.areleaseDependents 1 none) := by
    decide +kernel
  have commits : ((releases { dialect := .postgresql }).act
      ((releasesTo { dialect := .postgresql } (fun _ _ => true)
        (claimedMeanwhile 2)).get claimedSecond_ran) (.step 1)).any
          (fun next => (next.db.live.get 2).isNone) = true := by
    decide +kernel
  obtain ⟨next, taken, gone⟩ := (Option.any_eq_true _ _).mp commits
  have unharmed := spares _ 2 _ reached 1 _ next isCall rfl taken 2 running
  rw [← unharmed.live, Option.isNone_iff_eq_none.mp gone] at live
  cases live

end Sqlery.Standalone
