import Sqlery.Django.RunJobsSpecs
import Sqlery.ReadCommitted.Answers

/-!
# One job of a queue at a time, on Django

The check of a queue sees committed attempts only.  Two transactions that check
before either commits both pass.  If no process makes its check while another
has passed its own and is still at it, a job that has passed is alone in its
queue until its execution ends.
-/

namespace Sqlery.Django.RunJobs

open ReadCommitted

abbrev World (n : Nat) := State Db Write Lock Call Return n

section Runs

variable {n : Nat} {state next : World n} {action : Action Write Call n}

/-- The process has passed the check for the job, and its call goes on. -/
def Passing (state : World n) (process : Fin n) (job : JobId) : Prop :=
  .passed job ∈ (state.session process).state.noted ∧
    (state.session process).prog.idle = false

/-- Two jobs of one queue that tolerate no other. -/
structure Rivals (first second : JobId) (db : Db) : Prop where
  rows : ∃ row other, db.jobs.get first = some row ∧
    db.jobs.get second = some other ∧ row.queueName = other.queueName ∧
    row.allowParallel = false ∧ other.allowParallel = false

/-- A process that passes the check meets no other process that has passed it
for another job of the queue and is still at it. -/
def ChecksAlone (state : World n) (action : Action Write Call n) : Prop :=
  ∀ process remarks, system.remarking state action = some (process, remarks) →
    ∀ job, .passed job ∈ remarks → ∀ other rival, other ≠ process →
      Passing state other rival → Rivals job rival state.db → rival = job

/-- The states processes reach from a database without open attempts. -/
def Reached (allowed : World n → Action Write Call n → Prop)
    (state : World n) : Prop :=
  ∃ db, (∀ attempt ∈ db.attempts, attempt.isOpen = false) ∧
    system.Reaches allowed (System.initial db) state

/-- Every open attempt belongs to a queued row, and of the jobs of one queue
that tolerate no other one has an open attempt. -/
structure Exclusive (db : Db) : Prop where
  homed : Homed db
  sole : ∀ first ∈ db.attempts, ∀ second ∈ db.attempts,
    first.isOpen = true → second.isOpen = true →
    Rivals first.jobId second.jobId db → first.jobId = second.jobId

/-! ## Who holds a queue -/

/-- The job is running, or a process is about to run it. -/
def Holds (state : World n) (job : JobId) : Prop :=
  state.db.openFor job = true ∨ ∃ process, Passing state process job

structure InTurn (state : World n) : Prop where
  known : ∀ process job, Passing state process job →
    state.db.knows job = true
  sole : ∀ first second, Holds state first → Holds state second →
    Rivals first second state.db → first = second

theorem Holds.known (turn : InTurn state) {job : JobId}
    (holds : Holds state job) : state.db.knows job = true := by
  rcases holds with isOpen | ⟨process, passing⟩
  · obtain ⟨attempt, member, isJob, _⟩ := openFor_iff.mp isOpen
    rw [← isJob]
    exact knows_of_attempt member
  · exact turn.known process job passing

theorem Rivals.symm {first second : JobId} {db : Db}
    (rivals : Rivals first second db) : Rivals second first db := by
  obtain ⟨row, other, isRow, isOther, same, serial, alsoSerial⟩ := rivals.rows
  exact ⟨other, row, isOther, isRow, same.symm, alsoSerial, serial⟩

/-- Rivals were rivals before. -/
theorem Rivals.before {first second : JobId} {db later : Db}
    (origin : ∀ job row, (job = first ∨ job = second) →
      later.jobs.get job = some row → ∃ old, db.jobs.get job = some old ∧
        row.toJobSpec = old.toJobSpec)
    (rivals : Rivals first second later) : Rivals first second db := by
  obtain ⟨row, other, isRow, isOther, same, serial, alsoSerial⟩ := rivals.rows
  obtain ⟨old, isOld, sameRow⟩ := origin first row (Or.inl rfl) isRow
  obtain ⟨oldOther, isOldOther, sameOther⟩ :=
    origin second other (Or.inr rfl) isOther
  refine ⟨old, oldOther, isOld, isOldOther, ?_, ?_, ?_⟩
  · calc old.queueName
        = row.queueName := (congrArg JobSpec.queueName sameRow).symm
      _ = other.queueName := same
      _ = oldOther.queueName := congrArg JobSpec.queueName sameOther
  · exact (congrArg JobSpec.allowParallel sameRow).symm.trans serial
  · exact (congrArg JobSpec.allowParallel sameOther).symm.trans alsoSerial

/-! ## Commits -/

/-- A commit lets nobody hold a queue who did not before. -/
theorem holds_before {process : Fin n} {call : Call}
    (commits : executor.Commits state next action process call) {job : JobId}
    {row : Job} (found : next.db.jobs.get job = some row)
    (serial : row.allowParallel = false) (holds : Holds next job) :
    Holds state job := by
  have isAfter : next.db = after (state.session process).state.pending
      state.db := commits.db
  have lawful : Lawful state.db (state.session process).state :=
    commits.promised
  obtain ⟨rest, isCommit⟩ := commits.isCommit
  rcases holds with isOpen | ⟨other, passed, busy⟩
  · obtain ⟨attempt, member, isJob, stillOpen⟩ := openFor_iff.mp isOpen
    rw [isAfter] at member found
    cases lawful with
    | marks marked marks isMarked =>
        obtain ⟨jobs, attempts⟩ := after_marks marks state.db
        rcases (attempts attempt).mp member with old | new
        · exact Or.inl (openFor_iff.mpr ⟨attempt, old, isJob, stillOpen⟩)
        · obtain ⟨live, isLive, _, vouched⟩ := isMarked attempt new
          have same : marked = job := (marks _ new).symm.trans isJob
          rw [jobs, ← same, isLive] at found
          cases found
          rw [serial] at vouched
          rcases vouched with parallel | passed
          · cases parallel
          · refine Or.inr ⟨process, same ▸ passed, ?_⟩
            simp [isCommit, Prog.idle]
    | completes ended inPlace isPending _ =>
        rw [isPending] at member
        obtain ⟨old, _⟩ := open_after_complete member stillOpen
        exact Or.inl (openFor_iff.mpr ⟨attempt, old, isJob, stillOpen⟩)
  · refine Or.inr ⟨other, ?_⟩
    by_cases own : other = process
    · subst own
      rw [commits.committed] at passed
      exact ⟨passed, by simp [isCommit, Prog.idle]⟩
    · rw [commits.others other own] at passed busy
      exact ⟨passed, busy⟩

theorem InTurn.commits {process : Fin n} {call : Call}
    {post : Call → Return → Db → Loc → Prop}
    (good : executor.Good post state) (turn : InTurn state)
    (commits : executor.Commits state next action process call) :
    InTurn next := by
  have isAfter : next.db = after (state.session process).state.pending
      state.db := commits.db
  have lawful : Lawful state.db (state.session process).state :=
    commits.promised
  obtain ⟨rest, isCommit⟩ := commits.isCommit
  constructor
  · intro other job passing
    have before : Passing state other job := by
      obtain ⟨passed, busy⟩ := passing
      by_cases own : other = process
      · subst own
        rw [commits.committed] at passed
        exact ⟨passed, by simp [isCommit, Prog.idle]⟩
      · rw [commits.others other own] at passed busy
        exact ⟨passed, busy⟩
    rw [isAfter]
    exact (knows_lasting job).commits call state.db _ good.inv commits.guarded
      lawful (turn.known other job before)
  · intro first second firstHolds secondHolds rivals
    obtain ⟨row, other, isRow, isOther, _, serial, alsoSerial⟩ := rivals.rows
    have was : Rivals first second state.db := by
      apply rivals.before
      intro job row _ found
      rw [isAfter] at found
      exact lawful.row found
    exact turn.sole first second (holds_before commits isRow serial firstHolds)
      (holds_before commits isOther alsoSerial secondHolds) was

/-! ## Other steps -/

/-- A process that has passed had passed before, or passes now. -/
theorem passing_before (quiet : executor.Quiet state next action)
    {process : Fin n} {job : JobId} (passing : Passing next process job) :
    Passing state process job ∨
      (system.remarking state action = some (process, [.passed job]) ∧
        (state.session process).state.noted = [] ∧ Clear job state.db) := by
  obtain ⟨passed, busy⟩ := passing
  cases quiet.sessions process with
  | rests rests =>
      refine Or.inl ⟨rests.noted ▸ passed, ?_⟩
      by_contra isIdle
      rw [Bool.not_eq_false] at isIdle
      rw [rests.idle isIdle] at busy
      cases busy
  | remarks call remarks isRemark isCall promised stays grows running =>
      rw [grows] at passed
      rcases List.mem_append.mp passed with old | new
      · exact Or.inl ⟨old, running⟩
      · have noted : Noted state.db (state.session process).state remarks :=
          promised
        rcases noted with nothing | ⟨checked, isChecked, first, clear⟩
        · rw [nothing] at new
          cases new
        · rw [isChecked] at new
          cases List.mem_singleton.mp new
          exact Or.inr ⟨isChecked ▸ isRemark, first, clear⟩
  | starts call isStart isCall initial =>
      rw [initial] at passed
      cases passed

theorem open_before (quiet : executor.Quiet state next action) {job : JobId}
    (isOpen : next.db.openFor job = true) :
    state.db.openFor job = true := by
  cases quiet.db with
  | same isSame => exact isSame ▸ isOpen
  | instant call local_ writes promised isAfter =>
      rw [isAfter] at isOpen
      rcases promised with rfl | rfl <;> exact isOpen
  | ambient write isAction isAmbient isAfter =>
      rw [isAfter] at isOpen
      cases write with
      | create new =>
          obtain ⟨attempt, member, holds⟩ := openFor_iff.mp isOpen
          refine openFor_iff.mpr ⟨attempt, ?_, holds⟩
          simp only [executor, system, schema, Write.apply] at member
          split at member <;> exact member
      | enter entry => exact isOpen
      | tick elapsed => exact isOpen
      | _ => cases isAmbient

theorem rows_before (quiet : executor.Quiet state next action) :
    ∀ job row, next.db.jobs.get job = some row →
      (∃ old, state.db.jobs.get job = some old ∧
        row.toJobSpec = old.toJobSpec) ∨ state.db.knows job = false := by
  intro job row found
  cases quiet.db with
  | same isSame => exact Or.inl ⟨row, isSame ▸ found, rfl⟩
  | instant call local_ writes promised isAfter =>
      rw [isAfter] at found
      rcases promised with rfl | rfl <;> exact Or.inl ⟨row, found, rfl⟩
  | ambient write isAction isAmbient isAfter =>
      rw [isAfter] at found
      exact ambient_origin isAmbient job row found

/-- A process that passes the check holds the queue alone. -/
theorem sole_of_clear {job rival : JobId} {process : Fin n}
    (homed : Homed state.db) (alone : ChecksAlone state action)
    (checks : system.remarking state action = some (process, [.passed job]))
    (first : (state.session process).state.noted = [])
    (clear : Clear job state.db) (holds : Holds state rival)
    (rivals : Rivals job rival state.db) : rival = job := by
  rcases holds with isOpen | ⟨other, passing⟩
  · obtain ⟨row, live, isRow, isLive, same, _⟩ := rivals.rows
    obtain ⟨attempt, member, isJob, stillOpen⟩ := openFor_iff.mp isOpen
    obtain ⟨queuedRow, isQueuedRow, queued⟩ := homed attempt member stillOpen
    rw [isJob, isLive] at isQueuedRow
    cases isQueuedRow
    have keyed : live.id = rival := Table.key_of_get isLive
    have running : state.db.running live = true := by
      simp [Db.running, queued, keyed, isOpen]
    have isSole := clear.alone row isRow live (Table.mem_of_get isLive) running
      same.symm
    exact keyed.symm.trans isSole
  · by_cases own : other = process
    · subst own
      rw [Passing, first] at passing
      cases passing.1
    · exact alone process _ checks job List.mem_cons_self other rival own
        passing rivals

theorem InTurn.quiet {post : Call → Return → Db → Loc → Prop}
    (good : executor.Good post state) (turn : InTurn state)
    (alone : ChecksAlone state action)
    (taken : executor.sys.act state action = some next)
    (quiet : executor.Quiet state next action) : InTurn next := by
  have still : ∀ job, state.db.knows job = true → next.db.knows job = true :=
    fun job known => (knows_lasting job).act good taken known
  have known : ∀ process job, Passing next process job →
      state.db.knows job = true := by
    intro process job passing
    rcases passing_before quiet passing with before | ⟨_, _, clear⟩
    · exact turn.known process job before
    · exact clear.known
  refine ⟨fun process job passing => still job (known process job passing), ?_⟩
  -- Who holds a queue now held it before, or has just passed the check.
  have origin : ∀ job, Holds next job → Holds state job ∨
      ∃ process, system.remarking state action =
          some (process, [.passed job]) ∧
        (state.session process).state.noted = [] ∧ Clear job state.db := by
    rintro job (isOpen | ⟨process, passing⟩)
    · exact Or.inl (Or.inl (open_before quiet isOpen))
    · rcases passing_before quiet passing with before | checks
      · exact Or.inl (Or.inr ⟨process, before⟩)
      · exact Or.inr ⟨process, checks⟩
  have knownHolder : ∀ job, Holds next job → state.db.knows job = true := by
    intro job holds
    rcases origin job holds with before | ⟨_, _, _, clear⟩
    · exact before.known turn
    · exact clear.known
  intro first second firstHolds secondHolds rivals
  have was : Rivals first second state.db := by
    apply rivals.before
    intro job row isEither found
    have isKnown : state.db.knows job = true := by
      rcases isEither with rfl | rfl
      · exact knownHolder _ firstHolds
      · exact knownHolder _ secondHolds
    exact row_before isKnown (rows_before quiet) found
  rcases origin first firstHolds with firstBefore | ⟨process, checks, fresh,
    clear⟩
  · rcases origin second secondHolds with secondBefore | ⟨process, checks,
      fresh, clear⟩
    · exact turn.sole first second firstBefore secondBefore was
    · exact sole_of_clear good.inv alone checks fresh clear firstBefore was.symm
  · rcases origin second secondHolds with secondBefore | ⟨other, also, _, _⟩
    · exact (sole_of_clear good.inv alone checks fresh clear secondBefore
        was).symm
    · rw [checks] at also
      cases also
      rfl

/-! ## Runs -/

theorem Reached.inTurn (reached : Reached ChecksAlone state) :
    Homed state.db ∧ InTurn state := by
  obtain ⟨db, closed, run⟩ := reached
  have homed : Homed db := by
    intro attempt member isOpen
    rw [closed attempt member] at isOpen
    cases isOpen
  have start : InTurn (System.initial (n := n) db) := by
    constructor
    · intro process job passing
      cases passing.1
    · rintro first second (isOpen | ⟨process, passing⟩)
      · obtain ⟨attempt, member, _, stillOpen⟩ := openFor_iff.mp isOpen
        rw [closed attempt member] at stillOpen
        cases stillOpen
      · cases passing.1
  refine ⟨(Setting.sound executor_verified homed run).inv, ?_⟩
  refine executor_verified.induct homed start ?_ run
  intro state action next good turn alone taken
  rcases good.act_cases taken with ⟨process, call, commits⟩ | quiet
  · exact turn.commits good commits
  · exact turn.quiet good alone taken quiet

end Runs

/-- If every check is made alone, one job of a queue runs at a time. -/
theorem django_queue_exclusion {n : Nat} {state : World n}
    (reached : Reached ChecksAlone state) : Exclusive state.db := by
  obtain ⟨homed, turn⟩ := reached.inTurn
  refine ⟨homed, fun first isFirst second isSecond firstOpen secondOpen
    rivals => ?_⟩
  have holds : ∀ attempt ∈ state.db.attempts, attempt.isOpen = true →
      Holds state attempt.jobId := fun attempt member isOpen =>
    Or.inl (openFor_iff.mpr ⟨attempt, member, rfl, isOpen⟩)
  exact turn.sole first.jobId second.jobId (holds first isFirst firstOpen)
    (holds second isSecond secondOpen) rivals

/-! ## Runs that can be checked -/

def rivals (first second : JobId) (db : Db) : Bool :=
  (db.jobs.get first).any fun row => (db.jobs.get second).any fun other =>
    row.queueName = other.queueName && !row.allowParallel &&
      !other.allowParallel

theorem rivals_iff {first second : JobId} {db : Db} :
    rivals first second db = true ↔ Rivals first second db := by
  simp only [rivals, Option.any_eq_true, Bool.and_eq_true, decide_eq_true_eq,
    Bool.not_eq_true']
  constructor
  · rintro ⟨row, isRow, other, isOther, ⟨same, serial⟩, alsoSerial⟩
    exact ⟨row, other, isRow, isOther, same, serial, alsoSerial⟩
  · rintro ⟨row, other, isRow, isOther, same, serial, alsoSerial⟩
    exact ⟨row, isRow, other, isOther, ⟨same, serial⟩, alsoSerial⟩

def passes : Write → Option JobId
  | .passed job => some job
  | _ => none

def checksAlone {n : Nat} (state : World n) (action : Action Write Call n) :
    Bool :=
  (system.remarking state action).all fun (process, remarks) =>
    (remarks.filterMap passes).all fun job =>
      (List.finRange n).all fun other =>
        other = process || (state.session other).prog.idle ||
          ((state.session other).state.noted.filterMap passes).all
            fun rival => rival = job || !rivals job rival state.db

theorem checksAlone_sound {n : Nat} {state : World n}
    {action : Action Write Call n}
    (checked : checksAlone state action = true) :
    ChecksAlone state action := by
  intro process remarks isRemark job passed other rival different passing
    areRivals
  simp only [checksAlone, isRemark, Option.all_some, List.all_eq_true,
    List.mem_filterMap] at checked
  have here := checked job ⟨_, passed, rfl⟩ other (List.mem_finRange other)
  simp only [Bool.or_eq_true, decide_eq_true_eq, List.all_eq_true,
    List.mem_filterMap, Bool.not_eq_true'] at here
  rcases here with (own | isIdle) | apart
  · exact (different own).elim
  · rw [passing.2] at isIdle
    cases isIdle
  · rcases apart rival ⟨_, passing.1, rfl⟩ with same | noRivals
    · exact same
    · rw [rivals_iff.mpr areRivals] at noRivals
      cases noRivals

section Example

def waiting (id : JobId) (createdAt : Time) : Job := { id, createdAt }

def entryOf (job : Job) : Ready where
  slot := 0
  jobId := job.id
  queueName := job.queueName
  priority := job.priority
  createdAt := job.createdAt
  scheduledAt := none

/-- Two jobs of one queue. -/
def twoJobs : Db where
  jobs := (Table.empty.insert (waiting 2 1)).insert (waiting 1 0)
  ready := [entryOf (waiting 1 0), entryOf (waiting 2 1)]

def oneByOne : List (Action Write Call 2) :=
  Action.calls 0 (.runQueueWorkers none) 21 ++
    Action.calls 1 (.processOneJob none) 9

theorem oneByOne_ran : (system.runWhile checksAlone
    (System.initial twoJobs) oneByOne).isSome = true := by
  decide +kernel

def afterOneByOne : World 2 :=
  (system.runWhile checksAlone (System.initial twoJobs) oneByOne).get
    oneByOne_ran

/-- The second process finds the first one's job running. -/
theorem django_queue_exclusion_oneByOne : Exclusive afterOneByOne.db := by
  have run : system.Reaches ChecksAlone (System.initial twoJobs)
      afterOneByOne :=
    System.reaches_of_runWhile _ (fun _ _ checked => checksAlone_sound checked)
      (Option.some_get oneByOne_ran).symm
  have closed : ∀ attempt ∈ twoJobs.attempts, attempt.isOpen = false := by
    intro attempt member
    cases member
  exact django_queue_exclusion ⟨twoJobs, closed, run⟩

/-- The second process checks before the first one commits. -/
def atOnce : List (Action Write Call 2) :=
  Action.calls 0 (.runQueueWorkers none) 19 ++
    Action.calls 1 (.processOneJob none) 21 ++ [.step 0, .step 0]

theorem atOnce_ran :
    (system.run (System.initial twoJobs) atOnce).isSome = true := by
  decide +kernel

def afterAtOnce : World 2 :=
  (system.run (System.initial twoJobs) atOnce).get atOnce_ran

/-- Processes that check at the same time may run two jobs of one queue. -/
theorem django_queue_not_exclusive :
    ¬∀ (n : Nat) (state : World n), Reached System.anyStep state →
      Exclusive state.db := by
  intro claims
  have run : system.Reaches System.anyStep (System.initial twoJobs)
      afterAtOnce :=
    System.reaches_of_run _ (Option.some_get atOnce_ran).symm
  have closed : ∀ attempt ∈ twoJobs.attempts, attempt.isOpen = false := by
    intro attempt member
    cases member
  have exclusive := claims 2 afterAtOnce ⟨twoJobs, closed, run⟩
  have both : ∃ first ∈ afterAtOnce.db.attempts,
      ∃ second ∈ afterAtOnce.db.attempts, first.isOpen = true ∧
        second.isOpen = true ∧
        rivals first.jobId second.jobId afterAtOnce.db = true ∧
        first.jobId ≠ second.jobId := by
    decide +kernel
  obtain ⟨first, isFirst, second, isSecond, firstOpen, secondOpen, areRivals,
    different⟩ := both
  exact different (exclusive.sole first isFirst second isSecond firstOpen
    secondOpen (rivals_iff.mp areRivals))

end Example

end Sqlery.Django.RunJobs
