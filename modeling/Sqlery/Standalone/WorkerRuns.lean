import Sqlery.Standalone.LeftInPlace
import Sqlery.Standalone.QueueExclusion

/-!
# Runs of worker processes

Any number of processes run rounds and what belongs to the execution of the
jobs they claimed.  As long as no running job is replaced by a job of its name,
every open attempt has a queued row, and the rounds of a queue see each other.
-/

namespace Sqlery.Standalone

open ReadCommitted
open Setting (Ends Yields)
open Script

/-! ## What the transactions of a worker promise -/

/-- The turns of workers, whose transactions also close what they move and
what they leave in place. -/
def tidyTurns (cfg : Config) : Setting.Extension (turns cfg).setting Turn where
  body := turnBody cfg
  like := id
  beyond turn db state := Sealed cfg db state ∧ LeftInPlace turn.like state

/-- A round has returned a job that is ahead of its queue. -/
def Passes (turn : Turn) (value : Return) (db : Db) : Prop :=
  match turn, value with
  | .round _ _, .ok (.claimed (some claimed)) =>
      claimed.job.allowParallel = false → Ahead claimed db
  | _, _ => True

section Turns

variable {cfg : Config}

theorem requeues_of_tidy {call : Call} (tidy : call.tidy = true) :
    call.requeues = false := by
  cases call with
  | cascadeAncestorStatus job status =>
      cases status with
      | queued => cases tidy
      | _ => rfl
  | _ => rfl

theorem turns_verified (cfg : Config) :
    (turns cfg).setting.VerifiedFor (fun turn => turn.like.tidy = true)
      fun turn value db _ => Passes turn value db := by
  intro turn tidy
  have requeues : turn.like.requeues = false := requeues_of_tidy tidy
  cases turn with
  | call made =>
      intro db state inv guarded isInitial
      have safe := backend_verified cfg made db state inv guarded isInitial
      have still : (turns cfg).setting.Safe (.call made) (Returns cfg made)
          (turnBody cfg (.call made)) db state :=
        Setting.Extension.safe (fun _ _ => requeues) safe
      exact still.mono fun _ _ _ _ _ => trivial
  | round queues worker =>
      have anything : (turns cfg).setting.Stable fun _ _ => True :=
        fun _ _ _ _ _ _ _ => trivial
      have passed : ∀ claimed : Option Claimed,
          (turns cfg).setting.Stable fun db _ => ∀ job, claimed = some job →
            job.job.allowParallel = false → Ahead job db := by
        intro claimed first second state env inv guarded holds job isJob serial
        exact (ahead_lasting job).env env (holds job isJob serial)
      have spec : (turns cfg).setting.Spec (.round queues worker)
          (fun _ state => state = {})
          (Result.claimed <$> workerRound cfg queues worker)
          (fun result db _ => Passes (.round queues worker) (.ok result) db)
          fun _ _ => True := by
        refine .bind anything workerRound_spec fun claimed =>
          .pure (passed claimed) fun db state _ _ holds => ?_
        cases claimed with
        | none => trivial
        | some job => exact holds job rfl
      intro db state inv guarded isInitial
      refine Setting.Safe.mono ?_ (spec db state inv guarded isInitial)
      intro value db state _ holds
      cases value with
      | ok result => exact holds
      | error exception => trivial

/-! ## What a turn sees to -/

theorem canExecuteJob_seals {job : Job} {whole : Bool} :
    Seals cfg whole (canExecuteJob job) := by
  unfold canExecuteJob
  split
  · exact .pure _
  · exact .bind (.session (.bind (.read _) fun _ => .pure _)) fun _ => .pure _

theorem workerRound_seals {queues : List String} {worker : String} :
    Seals cfg true (workerRound cfg queues worker) := by
  apply Seals.bind claimJob_seals
  intro claimed
  cases claimed with
  | none => exact .pure _
  | some claimed =>
      apply Seals.bind canExecuteJob_seals
      intro allowed
      cases allowed with
      | true => exact .pure _
      | false => exact .bind releaseJob_seals fun _ => .pure _

theorem canExecuteJob_keeps {S : Scope} {job : Job} :
    S.Keeps (canExecuteJob job) := by
  unfold canExecuteJob
  split
  · exact .pure _
  · exact .bind (.session (.bind (.read _) fun _ => .pure _)) fun _ => .pure _

theorem workerRound_keeps {S : Scope} {queues : List String}
    {worker : String} : S.Keeps (workerRound cfg queues worker) := by
  apply Emits.bind claimJob_keeps
  intro claimed
  cases claimed with
  | none => exact .pure _
  | some claimed =>
      apply Emits.bind canExecuteJob_keeps
      intro allowed
      cases allowed with
      | true => exact .pure _
      | false => exact .bind releaseJob_keeps fun _ => .pure _

theorem turn_seals (cfg : Config) (turn : Turn) {db : Db} (inv : Inv db) :
    ∃ left, (backend cfg).Ends (sealing cfg) left
      (turnBody cfg turn) db {} := by
  have guarded : Guarded (schema cfg.dialect) {} := by
    intro write member
    cases member
  have shut : Shut cfg db {} := shut_of_idle rfl
  cases turn with
  | call made =>
      have seals : Seals cfg true (scriptOf cfg made) := scriptOf_seals made
      exact ⟨_, seals db {} ⟨inv, trivial⟩ guarded shut⟩
  | round queues worker =>
      have seals : Seals cfg true
          (Result.claimed <$> workerRound cfg queues worker) :=
        .map workerRound_seals
      exact ⟨_, seals db {} ⟨inv, trivial⟩ guarded shut⟩

theorem turn_tends (cfg : Config) {turn : Turn}
    (tidy : turn.like.tidy = true) {db : Db}
    (inv : Inv db) : ∃ left, (backend cfg).Ends (tending turn.like) left
      (turnBody cfg turn) db {} := by
  have guarded : Guarded (schema cfg.dialect) {} := by
    intro write member
    cases member
  have idle : LeftInPlace turn.like {} := leftInPlace_of_idle rfl
  cases turn with
  | call made =>
      have tends : Tends cfg made (scriptOf cfg made) := scriptOf_tends tidy
      exact ⟨_, tends db {} ⟨inv, trivial⟩ guarded idle⟩
  | round queues worker =>
      have tends : Tends cfg (.claimJob queues worker)
          (Result.claimed <$> workerRound cfg queues worker) :=
        .map (tends_of_keeps workerRound_keeps)
      exact ⟨_, tends db {} ⟨inv, trivial⟩ guarded idle⟩

/-- Every turn of a worker keeps its promise. -/
theorem tidyTurns_verified (cfg : Config) :
    (tidyTurns cfg).setting.VerifiedFor (fun turn => turn.like.tidy = true)
      fun turn value db _ => Passes turn value db := by
  intro turn tidy db state inv guarded isInitial
  have safe := turns_verified cfg turn tidy db state inv guarded isInitial
  cases isInitial
  obtain ⟨sealedLeft, seals⟩ := turn_seals cfg turn inv
  obtain ⟨tendedLeft, tends⟩ := turn_tends cfg tidy inv
  have ends := Setting.Extension.ends (E := turns cfg) (Ends.vows seals tends)
  have whole : (tidyTurns cfg).setting.Safe turn
      (fun value db _ => Passes turn value db) (turnBody cfg turn) db {} :=
    Setting.Extension.safe_of_ends (fun _ => trivial) (fun _ _ => trivial)
      (fun _ _ vowed => vowed) guarded ends safe
  exact whole

end Turns

/-! ## Reachable states -/

/-- The processes and the data they share. -/
abbrev Floor (n : Nat) := State Db Write Lock Turn Return n

/-- The states worker processes reach from a fresh database by steps that are
allowed, with what their turns have returned. -/
def Worked (cfg : Config) {n : Nat}
    (allowed : Floor n → Action Write Turn n → Prop) (state : Floor n)
    (answers : List (Turn × Return)) : Prop :=
  ∃ tasks workers clock, (turns cfg).sys.Answers allowed
    (System.initial (installed tasks workers clock)) state answers

/-- The handle names an attempt of the job. -/
def OfJobs (job : JobId) (handle : AttemptHandle) (db : Db) : Prop :=
  ∃ attempt ∈ db.attempts.rows, attempt.id = handle.id ∧ attempt.jobId = job

/-- What workers do: they run rounds, and an execution that fails presents the
attempt of its own job. -/
def ByWorkers {n : Nat} (state : Floor n) (action : Action Write Turn n) :
    Prop :=
  ∀ process turn, action = .start process turn → turn.like.tidy = true ∧
    ∀ job handle, turn.like.finishes = some (job, handle) →
      OfJobs job handle state.db

/-- A commit replaces no job that is running. -/
def ReplacesIdle {n : Nat} (state : Floor n) (action : Action Write Turn n) :
    Prop :=
  ∀ process turn, System.committing state action = some (process, turn) →
    ∀ job, .discardLive job ∈ (state.session process).state.pending →
      state.db.hasOpenAttempt job = false

/-- The rows of open attempts are queued. -/
def QueuedRows (db : Db) : Prop :=
  ∀ attempt ∈ db.attempts.rows, attempt.isOpen = true →
    ∀ row, db.live.get attempt.jobId = some row → row.status = .queued

/-- A round has returned the job, and its attempt is open. -/
structure InExecution (answers : List (Turn × Return)) (db : Db)
    (claimed : Claimed) : Prop where
  passed : ∃ queues worker,
    (.round queues worker, .ok (.claimed (some claimed))) ∈ answers
  running : ∃ attempt ∈ db.attempts.rows,
    attempt.id = claimed.handle.id ∧ attempt.isOpen = true

/-- Of the jobs of one queue that tolerate no other, one is in execution. -/
def Exclusive (answers : List (Turn × Return)) (db : Db) : Prop :=
  ∀ first second, InExecution answers db first →
    InExecution answers db second → first.job.allowParallel = false →
    second.job.allowParallel = false →
    first.job.queueName = second.job.queueName → first.job.id = second.job.id

section Commit

variable {cfg : Config} {call : Call} {stage : Stage} {db : Db} {state : Loc}

theorem ofJobs_after {job : JobId} {handle : AttemptHandle}
    (writes : List Write) (holds : OfJobs job handle db) :
    OfJobs job handle (after writes db) := by
  obtain ⟨attempt, member, isHandle, isJob⟩ := holds
  obtain ⟨now, isNow, same, _⟩ :=
    attempts_after_present writes (Table.get_of_mem member)
  have keyed : now.id = attempt.id := Table.key_of_get isNow
  exact ⟨now, Table.mem_of_get isNow, keyed.trans isHandle, same.trans isJob⟩

/-- The attempt of a row that is left in place is closed. -/
theorem closed_of_left {row : Job} {attempt : Attempt} (inv : Inv db)
    (lawful : Lawful cfg.dialect call stage db state)
    (left : LeftInPlace call state)
    (handed : ∀ job handle, call.finishes = some (job, handle) →
      OfJobs job handle db)
    (updated : .setLive row ∈ state.pending) (isJob : attempt.jobId = row.id)
    (member : attempt ∈ (after state.pending db).attempts.rows) :
    attempt.isOpen = false := by
  obtain ⟨handle, finishes, owner, now, outcome, closed⟩ := left row updated
  obtain ⟨mine, isMine, isHandle, ownJob⟩ := handed _ _ finishes
  obtain ⟨found, isFound, runs⟩ := lawful.closed _ _ _ _ closed
  have same : found = mine := by
    have stored := Table.get_of_mem isMine
    rw [isHandle, isFound] at stored
    exact Option.some.inj stored
  rw [same] at runs
  have wasOpen : mine.isOpen = true := (runs_iff.mp runs).2
  by_contra stillOpen
  rw [Bool.not_eq_false] at stillOpen
  rcases open_after_cases member stillOpen with old | new
  · have isAttempt : attempt = mine := inv.single attempt old mine isMine
      stillOpen wasOpen (isJob.trans ownJob.symm)
    obtain ⟨closedRow, isClosed, notOpen⟩ := attempts_after_closed
      (Table.get_of_mem isMine) closed ⟨owner, now, outcome, by rw [isHandle]⟩
    rw [← isAttempt, Table.get_of_mem member] at isClosed
    cases isClosed
    rw [stillOpen] at notOpen
    cases notOpen
  · have idle := (lawful.opened attempt new).2.2.idle
    exact hasOpenAttempt_eq_false.mp idle mine isMine wasOpen
      (ownJob.trans isJob.symm)

theorem QueuedRows.commit (queued : QueuedRows db) (inv : Inv db)
    (lawful : Lawful cfg.dialect call stage db state)
    (left : LeftInPlace call state)
    (handed : ∀ job handle, call.finishes = some (job, handle) →
      OfJobs job handle db) : QueuedRows (after state.pending db) := by
  intro attempt member isOpen row found
  have isJob : row.id = attempt.jobId := Table.key_of_get found
  rcases live_after_origin found with inserted | updated | old
  · exact (lawful.inserted row inserted).2.1
  · have closed := closed_of_left inv lawful left handed updated isJob.symm
      member
    rw [isOpen] at closed
    cases closed
  · rcases open_after_cases member isOpen with stored | new
    · exact queued attempt stored isOpen row old
    · obtain ⟨live, isLive, isQueued⟩ := (lawful.opened attempt new).2.2.row
      rw [old] at isLive
      cases isLive
      exact isQueued

end Commit

section Runs

variable {cfg : Config} {n : Nat} {state next : Floor n}
variable {action : Action Write Turn n} {answers : List (Turn × Return)}

/-- What holds between the steps of worker processes. -/
structure InOrder (state : Floor n) : Prop where
  homed : Homed state.db
  queued : QueuedRows state.db
  handed : ∀ process turn, (state.session process).call = some turn →
    ∀ job handle, turn.like.finishes = some (job, handle) →
      OfJobs job handle state.db

theorem inOrder_installed (tasks : Table ScheduledTask.id)
    (workers : Table Worker.id) (clock : Time) :
    InOrder (System.initial (n := n) (installed tasks workers clock)) where
  homed := by
    intro attempt member
    cases member
  queued := by
    intro attempt member
    cases member
  handed := by
    intro process turn impossible
    cases impossible

theorem ofJobs_lasting (job : JobId) (handle : AttemptHandle) :
    (tidyTurns cfg).setting.Lasting (OfJobs job handle) where
  commits := fun _ _ state _ _ _ holds => ofJobs_after state.pending holds
  instant := fun _ _ _ writes _ _ holds => ofJobs_after writes holds
  ambient := fun write _ _ _ holds => ofJobs_after [write] holds

theorem InOrder.act
    {post : Turn → Return → Db → Loc → Prop}
    (good : (tidyTurns cfg).setting.Good post state) (order : InOrder state)
    (byWorkers : ByWorkers state action) (spares : ReplacesIdle state action)
    (taken : (tidyTurns cfg).sys.act state action = some next) :
    InOrder next := by
  have still : ∀ job handle, OfJobs job handle state.db →
      OfJobs job handle next.db :=
    fun job handle holds => (ofJobs_lasting job handle).act good taken holds
  have before : ∀ process turn, (state.session process).call = some turn →
      ∀ job handle, turn.like.finishes = some (job, handle) →
        OfJobs job handle next.db :=
    fun process turn isCall job handle finishes =>
      still job handle (order.handed process turn isCall job handle finishes)
  rcases good.act_cases taken with ⟨process, turn, commits⟩ | quiet
  · obtain ⟨⟨⟨stage, complete, lawful⟩, requeues⟩, isSealed, left⟩ :=
      commits.promised
    have isAfter : next.db = after (state.session process).state.pending
        state.db := commits.db
    constructor
    · rw [isAfter]
      exact order.homed.commit lawful isSealed
        (spares process turn commits.committing)
    · rw [isAfter]
      exact order.queued.commit good.inv lawful left
        (order.handed process turn commits.isCall)
    · exact commits.made before
  · have starts : ∀ process turn, action = .start process turn →
        ∀ job handle, turn.like.finishes = some (job, handle) →
          OfJobs job handle next.db :=
      fun process turn isStart job handle finishes =>
        still job handle
          ((byWorkers process turn isStart).2 job handle finishes)
    have tables : SameTables state.db next.db := by
      cases quiet.db with
      | same isSame => exact isSame ▸ .refl _
      | instant call local_ writes promised isAfter =>
          exact isAfter ▸ sameTables_after promised _
      | ambient write _ isAmbient isAfter =>
          exact isAfter ▸
            sameTables_apply (isCounter_of_isAmbient isAmbient) _
    constructor
    · intro attempt member isOpen
      rw [tables.attempts] at member
      rw [tables.live]
      exact order.homed attempt member isOpen
    · intro attempt member isOpen row found
      rw [tables.attempts] at member
      rw [tables.live] at found
      exact order.queued attempt member isOpen row found
    · exact quiet.made starts before

variable {allowed : Floor n → Action Write Turn n → Prop}

theorem Worked.inOrder
    (byWorkers : ∀ state action, allowed state action →
      ByWorkers state action)
    (spares : ∀ state action, allowed state action →
      ReplacesIdle state action)
    (worked : Worked cfg allowed state answers) :
    Inv state.db ∧ InOrder state := by
  obtain ⟨tasks, workers, clock, run⟩ := worked
  have inv := inv_installed tasks workers clock
  have starts : ∀ state process turn,
      allowed state (.start process turn) → turn.like.tidy = true :=
    fun state process turn permitted =>
      (byWorkers state _ permitted process turn rfl).1
  have verified := tidyTurns_verified cfg
  have good := verified.sound starts inv run.reaches
  refine ⟨good.inv, verified.induct starts inv
    (inOrder_installed tasks workers clock) ?_ run.reaches⟩
  intro state action next good _ order permitted taken
  exact order.act good (byWorkers state action permitted)
    (spares state action permitted) taken

/-- Every job a round has returned is ahead of its queue, for good. -/
theorem Worked.ahead
    (byWorkers : ∀ state action, allowed state action →
      ByWorkers state action)
    (worked : Worked cfg allowed state answers) :
    ∀ turn value, (turn, value) ∈ answers → Passes turn value state.db := by
  obtain ⟨tasks, workers, clock, run⟩ := worked
  have lasting : ∀ turn value,
      (tidyTurns cfg).setting.Lasting (Passes turn value) := by
    intro turn value
    apply Setting.Extension.lasting (E := tidyTurns cfg)
    unfold Passes
    split
    · rename_i claimed
      have held : (turns cfg).setting.Lasting (Ahead claimed) :=
        ahead_lasting claimed
      exact ⟨fun call db state inv guarded promised holds serial =>
          held.commits call db state inv guarded promised (holds serial),
        fun call db state writes inv promised holds serial =>
          held.instant call db state writes inv promised (holds serial),
        fun write db inv ambient holds serial =>
          held.ambient write db inv ambient (holds serial)⟩
    · exact ⟨fun _ _ _ _ _ _ _ => trivial, fun _ _ _ _ _ _ _ => trivial,
        fun _ _ _ _ _ => trivial⟩
  exact (tidyTurns_verified cfg).answers
    (fun state process turn permitted =>
      (byWorkers state _ permitted process turn rfl).1)
    (inv_installed tasks workers clock) lasting
    (fun _ _ _ _ holds => holds) run

end Runs

/-- Two jobs of a queue that tolerate no other are never in execution at the
same time, as long as no running job is replaced by a job of its name. -/
theorem queue_exclusion (cfg : Config) {n : Nat} {state : Floor n}
    {answers : List (Turn × Return)}
    (worked : Worked cfg (fun state action => ByWorkers state action ∧
      ReplacesIdle state action) state answers) :
    Exclusive answers state.db := by
  intro first second firstRuns secondRuns firstSerial secondSerial sameQueue
  obtain ⟨-, order⟩ := worked.inOrder (fun _ _ both => both.1)
    fun _ _ both => both.2
  have ahead := worked.ahead fun _ _ both => both.1
  obtain ⟨firstQueues, firstWorker, firstPassed⟩ := firstRuns.passed
  obtain ⟨secondQueues, secondWorker, secondPassed⟩ := secondRuns.passed
  have firstAhead : Ahead first state.db :=
    ahead _ _ firstPassed firstSerial
  have secondAhead : Ahead second state.db :=
    ahead _ _ secondPassed secondSerial
  exact firstAhead.unique order.homed order.queued secondAhead
    firstRuns.running secondRuns.running sameQueue

/-! ## Runs that can be checked -/

def byWorkers {n : Nat} (state : Floor n) (action : Action Write Turn n) :
    Bool :=
  match action with
  | .start _ turn => turn.like.tidy &&
      turn.like.finishes.all fun (job, handle) =>
        state.db.attempts.rows.any fun attempt =>
          attempt.id = handle.id && attempt.jobId = job
  | _ => true

theorem byWorkers_sound {n : Nat} {state : Floor n}
    {action : Action Write Turn n} (checked : byWorkers state action = true) :
    ByWorkers state action := by
  intro process turn isStart
  subst isStart
  simp only [byWorkers, Bool.and_eq_true, Option.all_eq_true] at checked
  refine ⟨checked.1, fun job handle finishes => ?_⟩
  have given := checked.2 (job, handle) finishes
  simp only [List.any_eq_true, Bool.and_eq_true, decide_eq_true_eq] at given
  exact given

def replacesIdle {n : Nat} (state : Floor n) (action : Action Write Turn n) :
    Bool :=
  match System.committing state action with
  | none => true
  | some (process, _) => (state.session process).state.pending.all fun write =>
      match write with
      | .discardLive job => !state.db.hasOpenAttempt job
      | _ => true

theorem replacesIdle_sound {n : Nat} {state : Floor n}
    {action : Action Write Turn n}
    (checked : replacesIdle state action = true) :
    ReplacesIdle state action := by
  intro process turn committing job replaced
  simp only [replacesIdle, committing, List.all_eq_true] at checked
  have idle := checked _ replaced
  simpa using idle

/-- The state and the answers a list of actions leads to on an empty
database, if each of them passes a check. -/
def workedTo (cfg : Config) {n : Nat}
    (check : Floor n → Action Write Turn n → Bool)
    (actions : List (Action Write Turn n)) :
    Option (Floor n × List (Turn × Return)) :=
  (turns cfg).sys.answerWhile check
    (System.initial (installed .empty .empty 0)) [] actions

theorem worked_workedTo {cfg : Config} {n : Nat}
    {check : Floor n → Action Write Turn n → Bool}
    {allowed : Floor n → Action Write Turn n → Prop}
    (sound : ∀ state action, check state action = true →
      allowed state action) {actions : List (Action Write Turn n)}
    (ran : (workedTo cfg check actions).isSome = true) :
    Worked cfg allowed ((workedTo cfg check actions).get ran).1
      ((workedTo cfg check actions).get ran).2 := by
  have whole := (Option.some_get ran).symm
  exact ⟨.empty, .empty, 0, System.answers_of_answerWhile sound .refl whole⟩

/-- The jobs rounds have returned. -/
def claimedIn (answers : List (Turn × Return)) : List Claimed :=
  answers.filterMap fun answer =>
    match answer with
    | (.round _ _, .ok (.claimed claimed)) => claimed
    | _ => none

theorem inExecution_of_claimedIn {answers : List (Turn × Return)} {db : Db}
    {claimed : Claimed} (member : claimed ∈ claimedIn answers)
    (running : ∃ attempt ∈ db.attempts.rows,
      attempt.id = claimed.handle.id ∧ attempt.isOpen = true) :
    InExecution answers db claimed where
  passed := by
    obtain ⟨answer, isAnswer, isClaimed⟩ := List.mem_filterMap.mp member
    split at isClaimed
    · rename_i queues worker found
      cases isClaimed
      exact ⟨queues, worker, isAnswer⟩
    · cases isClaimed
  running := running

section Example

def postgres : Config := { dialect := .postgresql }

def createFirst : Turn :=
  .call (.createJob { jobName := some "x", queueName := "q1", maxRetries := 1 })

/-- A job of another queue, under the name of the first one's retry. -/
def createSecond : Turn :=
  .call (.createJob { jobName := some (retryJobName "x" 1), queueName := "q2" })

def createThird : Turn := .call (.createJob { queueName := "q2" })

/-- Two workers claim the jobs of one queue, one after the other. -/
def claimBoth : List (Action Write Turn 2) :=
  Action.calls 0 createThird 13 ++ Action.calls 0 createThird 13 ++
    Action.calls 0 (.round ["q2"] "one") 16 ++
    Action.calls 1 (.round ["q2"] "two") 25

theorem claimBoth_ran : (workedTo postgres (fun state action =>
    byWorkers state action && replacesIdle state action)
      claimBoth).isSome = true := by
  decide +kernel

def claimedBoth : Floor 2 × List (Turn × Return) :=
  (workedTo postgres _ claimBoth).get claimBoth_ran

/-- The second worker returns its job. -/
theorem queue_exclusion_claimedBoth :
    Exclusive claimedBoth.2 claimedBoth.1.db := by
  have sound : ∀ (state : Floor 2) action,
      (byWorkers state action && replacesIdle state action) = true →
      ByWorkers state action ∧ ReplacesIdle state action := by
    intro state action checked
    rw [Bool.and_eq_true] at checked
    exact ⟨byWorkers_sound checked.1, replacesIdle_sound checked.2⟩
  exact queue_exclusion postgres (worked_workedTo sound claimBoth_ran)

/-- The execution of the first job fails and is retried. -/
def failFirst : Turn :=
  .call (.failExecution
    { jobName := some "x", queueName := "q1", maxRetries := 1, id := 1
      createdAt := 0, status := .running, startedAt := some 0
      workerId := some 0, workerPid := some 0 }
    { id := 1, token := "", jobId := 1, claimedAt := some 0
      workerId := some 0, workerPid := some 0 } "boom" "" true)

/-- The retry of the first job replaces the second one while it runs. -/
def replaceSecond : List (Action Write Turn 3) :=
  Action.calls 0 createFirst 16 ++ Action.calls 0 createSecond 16 ++
    Action.calls 0 createThird 13 ++
    Action.calls 0 (.round ["q1"] "one") 16 ++
    Action.calls 1 (.round ["q2"] "two") 16 ++
    Action.calls 0 failFirst 56 ++
    Action.calls 2 (.round ["q2"] "three") 16

theorem replaceSecond_ran :
    (workedTo postgres byWorkers replaceSecond).isSome = true := by
  decide +kernel

def replacedSecond : Floor 3 × List (Turn × Return) :=
  (workedTo postgres byWorkers replaceSecond).get replaceSecond_ran

/-- Two jobs of the second queue are in execution. -/
theorem replacedSecond_both :
    ∃ first ∈ claimedIn replacedSecond.2, ∃ second ∈ claimedIn replacedSecond.2,
      (∃ attempt ∈ replacedSecond.1.db.attempts.rows,
        attempt.id = first.handle.id ∧ attempt.isOpen = true) ∧
      (∃ attempt ∈ replacedSecond.1.db.attempts.rows,
        attempt.id = second.handle.id ∧ attempt.isOpen = true) ∧
      first.job.allowParallel = false ∧ second.job.allowParallel = false ∧
      first.job.queueName = second.job.queueName ∧
      first.job.id ≠ second.job.id := by
  decide +kernel

/-- Workers that only claim, check and execute may run two jobs of one queue at
a time. -/
theorem queue_not_exclusive :
    ¬∀ (cfg : Config) (n : Nat) (state : Floor n)
      (answers : List (Turn × Return)), Worked cfg ByWorkers state answers →
      Exclusive answers state.db := by
  intro claims
  have worked : Worked postgres ByWorkers replacedSecond.1 replacedSecond.2 :=
    worked_workedTo (fun _ _ checked => byWorkers_sound checked)
      replaceSecond_ran
  have exclusive := claims postgres 3 _ _ worked
  obtain ⟨first, isFirst, second, isSecond, firstRuns, secondRuns,
    firstSerial, secondSerial, sameQueue, different⟩ := replacedSecond_both
  have firstExecutes := inExecution_of_claimedIn isFirst firstRuns
  have secondExecutes := inExecution_of_claimedIn isSecond secondRuns
  exact different (exclusive first second firstExecutes secondExecutes
    firstSerial secondSerial sameQueue)

end Example

end Sqlery.Standalone
