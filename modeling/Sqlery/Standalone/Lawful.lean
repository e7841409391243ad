import Sqlery.ReadCommitted.Script
import Sqlery.Standalone.Moves

/-!
# Lawful transactions

What every transaction of the backend promises about the writes it has made so
far, judged against the committed data and the locks it holds: it opens an
attempt only for a queued, idle job whose row it has locked, it closes only
open attempts, it inserts a history row only for a live row it has locked and
deletes that row too, and it inserts live rows only under fresh ids.  The
promise survives what the other transactions do, because they keep it as well,
and it is enough to keep the invariant of the data at a commit.
-/

namespace Sqlery.Standalone

open ReadCommitted

abbrev Loc := Local Write Lock

/-! ## The invariant of the committed data -/

structure Inv (db : Db) : Prop where
  /-- A job has at most one open attempt. -/
  single : ∀ first ∈ db.attempts.rows, ∀ second ∈ db.attempts.rows,
    first.isOpen = true → second.isOpen = true →
    first.jobId = second.jobId → first = second
  attemptIds : ∀ attempt ∈ db.attempts.rows,
    attempt.id < db.nextAttempt ∧ attempt.jobId < db.nextJob
  liveIds : ∀ row ∈ db.live.rows, row.id < db.nextJob
  historyIds : ∀ row ∈ db.history.rows, row.id < db.nextJob
  replacedIds : ∀ job ∈ db.replaced, job < db.nextJob
  /-- A job is not both live and in history. -/
  apart : ∀ row ∈ db.history.rows, db.live.get row.id = none
  /-- A job is in history once. -/
  once : ∀ first ∈ db.history.rows, ∀ second ∈ db.history.rows,
    first.id = second.id → first = second
  slotted : ∀ entry ∈ db.ready.rows, entry.slot ∈ slots
  versioned : Versioned db

/-! ## Writes -/

/-- A write that starts something: an attempt or a job. -/
def creation : Write → Bool
  | .insertAttempt _ => true
  | .insertLive _ => true
  | .insertStaged _ => true
  | _ => false

def closedId : Write → Option AttemptId
  | .closeAttempt id _ _ _ => some id
  | _ => none

/-- The write leaves the job with an entry. -/
inductive Files (job : JobId) : Write → Prop where
  | ready (entry : Ready) : entry.jobId = job → Files job (.insertReady entry)
  | foundReady (slot : Nat) : Files job (.foundReady slot job)
  | blocked (row : Blocked) : row.jobId = job → Files job (.insertBlocked row)
  | foundBlocked (dependency : JobId) : Files job (.foundBlocked job dependency)

/-- The write takes an entry of the job away. -/
inductive Drops (job : JobId) : Write → Prop where
  | ready (slot : Nat) : Drops job (.deleteReady slot job)
  | blocked (dependency : JobId) : Drops job (.deleteBlocked job dependency)

/-- The last word on the entries of a job is that it has one. -/
def Filed (writes : List Write) (job : JobId) : Prop :=
  ∃ earlier filing later, writes = earlier ++ filing :: later ∧
    Files job filing ∧ ∀ write ∈ later, ¬Drops job write

/-- The parent of a job the write inserts. -/
def parentOf : Write → Option JobId
  | .insertLive row => row.parentJobId
  | .insertStaged row => row.spec.parentJobId
  | _ => none

/-- The job a sweep writes about: its attempt ends, it is marked or retried. -/
def sweptJob : Write → Option JobId
  | .closeAttempt _ job _ _ => some job
  | .setLive row => some row.id
  | write => parentOf write

def createdFor (parent : JobId) (writes : List Write) : Nat :=
  writes.countP fun write => parentOf write = some parent

def lookedUp (parent : JobId) (noted : List Write) : Nat :=
  noted.countP fun note => note = .remark (.noRetry parent)

/-- The same job in two rows: everything its creator chose. -/
structure SameJob (row other : Job) : Prop where
  id : other.id = row.id
  createdAt : other.createdAt = row.createdAt
  spec : other.toJobSpec = row.toJobSpec

/-- The history row of a live row, with the status and the columns that the
call gives a finished job and the row's other columns. -/
structure MovedRow (call : Call) (db : Db) (row moved : Job) : Prop
    extends SameJob row moved where
  columns : ∃ values now, Finishes call db row.id moved.status values ∧
    moved = historyRow db row moved.status values now
  version : moved.version = row.version + 1
  terminal : isTerminal moved.status = true
  finished : moved.finishedAt.isSome = true

theorem MovedRow.later {call : Call} {db next : Db} {row moved : Job}
    (isMoved : MovedRow call db row moved) (remembers : Remembering db next)
    (same : next.newestOpening row.id = db.newestOpening row.id) :
    MovedRow call next row moved where
  toSameJob := isMoved.toSameJob
  columns := by
    obtain ⟨values, now, finishes, isHistory⟩ := isMoved.columns
    refine ⟨values, now, finishes.later remembers, ?_⟩
    exact isHistory.trans (historyRow_congr same.symm)
  version := isMoved.version
  terminal := isMoved.terminal
  finished := isMoved.finished

/-! ## The promise -/

/-- Where a transaction stands: a job whose attempt it closed still has to
move or to get an entry, or it is half moved, or it has got its entry. -/
inductive Stage where
  | clean
  | owing (job : JobId)
  | moving (job : JobId)
  | filed (job : JobId)
  deriving DecidableEq, Repr

def Stage.complete : Stage → Bool
  | .clean => true
  | .filed _ => true
  | _ => false

def Owns (dialect : Dialect) (state : Loc) (lock : Lock) : Prop :=
  lockOf dialect lock ∈ state.held

/-- Why a job whose attempt is closed needs no entry, or has one.  A handle of
another job than the one completed is the caller's mistake. -/
inductive Settled (call : Call) (stage : Stage) (db : Db)
    (writes : List Write) (job : JobId) : Prop where
  | moves : .deleteLive job ∈ writes → Settled call stage db writes job
  | leaves (row : Job) : .setLive row ∈ writes → row.id = job →
      row.status ≠ .queued → Settled call stage db writes job
  | gone : db.live.get job = none → Settled call stage db writes job
  | foreign (target : JobId) : call.completes = some target → target ≠ job →
      Settled call stage db writes job
  | owing : stage = .owing job → Settled call stage db writes job
  | moving : stage = .moving job → Settled call stage db writes job
  | filed : stage = .filed job → call.sweeps = false → Filed writes job →
      Settled call stage db writes job

/-- Why a job may enter history as a success: it carries that status already,
or its completion closes an attempt, unless the caller has none to close. -/
inductive Succeeds (call : Call) (db : Db) (writes : List Write)
    (job : JobId) : Prop where
  | settles (row : Job) : db.live.get job = some row →
      row.status = .success → Succeeds call db writes job
  | unfenced : call.succeedsUnfenced = true → Succeeds call db writes job
  | fenced (output : String) (version : Option Nat) (handle : AttemptHandle)
      (owner : JobId) (now : Time) (outcome : Outcome) :
      call = .markJobSuccess job output version (some handle) →
      .closeAttempt handle.id owner now outcome ∈ writes →
      Succeeds call db writes job

/-- The row may be opened an attempt for. -/
structure Claimable (db : Db) (attempt : Attempt) : Prop where
  row : ∃ row, db.live.get attempt.jobId = some row ∧ row.status = .queued
  idle : db.hasOpenAttempt attempt.jobId = false
  absent : db.attempts.get attempt.id = none
  drawn : attempt.id < db.nextAttempt

/-- Nobody knows the job id yet. -/
structure Unused (db : Db) (job : JobId) : Prop where
  live : db.live.get job = none
  history : ∀ row ∈ db.history.rows, row.id ≠ job
  attempts : ∀ attempt ∈ db.attempts.rows, attempt.jobId ≠ job
  replaced : job ∉ db.replaced
  drawn : job < db.nextJob

structure Lawful (dialect : Dialect) (call : Call) (stage : Stage) (db : Db)
    (state : Loc) : Prop where
  opened : ∀ attempt, .insertAttempt attempt ∈ state.pending →
    Owns dialect state (.live attempt.jobId) ∧ attempt.isOpen = true ∧
      Claimable db attempt
  openedBy : ∀ attempt, .insertAttempt attempt ∈ state.pending →
    call.opens = true
  openedOnce : ∀ first second, .insertAttempt first ∈ state.pending →
    .insertAttempt second ∈ state.pending → first = second
  closed : ∀ id job now outcome,
    .closeAttempt id job now outcome ∈ state.pending →
    ∃ attempt, db.attempts.get id = some attempt ∧ attempt.runs job = true
  closedOnce : (state.pending.filterMap closedId).Nodup
  settled : ∀ id job now outcome,
    .closeAttempt id job now outcome ∈ state.pending →
    Settled call stage db state.pending job
  moved : ∀ row, .insertHistory row ∈ state.pending →
    Owns dialect state (.live row.id) ∧
      (∃ live, db.live.get row.id = some live ∧
        MovedRow call db live row) ∧
      (.deleteLive row.id ∈ state.pending ∨ stage = .moving row.id)
  movedOnce : ∀ first second, .insertHistory first ∈ state.pending →
    .insertHistory second ∈ state.pending → first.id = second.id →
    first = second
  deleted : ∀ job, .deleteLive job ∈ state.pending →
    ∃ row, .insertHistory row ∈ state.pending ∧ row.id = job
  succeeded : ∀ row, .insertHistory row ∈ state.pending →
    row.status = .success → Succeeds call db state.pending row.id
  discarded : ∀ job, .discardLive job ∈ state.pending →
    call.creates = true ∧ db.live.get job ≠ none
  inserted : ∀ row, .insertLive row ∈ state.pending →
    Unused db row.id ∧ row.status = .queued ∧ call.creates = true ∧
      stage = .filed row.id ∧ Filed state.pending row.id
  insertedOnce : ∀ first second, .insertLive first ∈ state.pending →
    .insertLive second ∈ state.pending → first = second
  updated : ∀ row, .setLive row ∈ state.pending →
    (∃ live, db.live.get row.id = some live ∧ SameJob live row) ∧
      row.status ≠ .success ∧ (row.status = .queued → call.requeues = true)
  slotted : ∀ entry, .insertReady entry ∈ state.pending → entry.slot ∈ slots
  swept : call.sweeps = true → ∀ write ∈ state.pending, ∀ job,
    sweptJob write = some job →
    ∃ attempt, .remark (.judged job attempt) ∈ state.noted
  takenUp : call.takesUp = true → ∀ write ∈ state.pending, ∀ parent,
    parentOf write = some parent → .remark (.takenUp parent) ∈ state.noted
  paired : call.retries = true → ∀ parent,
    createdFor parent (state.written ++ state.pending) ≤
      lookedUp parent state.noted

/-! ## A lawful commit keeps the invariant -/

section Commit

variable {dialect : Dialect} {call : Call} {stage : Stage} {db : Db}
variable {state : Loc}

theorem hasOpenAttempt_eq_false {job : JobId} :
    db.hasOpenAttempt job = false ↔
      ∀ attempt ∈ db.attempts.rows, attempt.isOpen = true →
        attempt.jobId ≠ job := by
  simp only [Db.hasOpenAttempt, Attempt.runs, List.any_eq_false,
    Bool.and_eq_true, decide_eq_true_eq, not_and, Bool.not_eq_true]
  constructor
  · intro idle attempt member isOpen same
    rw [idle attempt member same] at isOpen
    cases isOpen
  · intro idle attempt member same
    by_contra isOpen
    exact idle attempt member (by simpa using isOpen) same

theorem runs_iff {attempt : Attempt} {job : JobId} :
    attempt.runs job = true ↔
      attempt.jobId = job ∧ attempt.isOpen = true := by
  simp [Attempt.runs]

theorem Lawful.moves (lawful : Lawful dialect call stage db state)
    (complete : stage.complete = true) {row : Job}
    (member : .insertHistory row ∈ state.pending) :
    .deleteLive row.id ∈ state.pending := by
  obtain ⟨_, _, deleted | moving⟩ := lawful.moved row member
  · exact deleted
  · rw [moving] at complete
    cases complete

/-- A row that is moved or deleted is not one the transaction inserted. -/
theorem Lawful.noInsert (lawful : Lawful dialect call stage db state)
    {job : JobId} (present : db.live.get job ≠ none) :
    ∀ new, .insertLive new ∈ state.pending → new.id ≠ job := by
  rintro new member rfl
  exact present (lawful.inserted new member).1.live

theorem Lawful.single (lawful : Lawful dialect call stage db state)
    (inv : Inv db) :
    ∀ first ∈ (after state.pending db).attempts.rows,
      ∀ second ∈ (after state.pending db).attempts.rows,
      first.isOpen = true → second.isOpen = true →
      first.jobId = second.jobId → first = second := by
  intro first firstMember second secondMember firstOpen secondOpen same
  have idle : ∀ new old, .insertAttempt new ∈ state.pending →
      old ∈ db.attempts.rows → old.isOpen = true →
      old.jobId ≠ new.jobId := fun new old inserted member isOpen =>
    hasOpenAttempt_eq_false.mp (lawful.opened new inserted).2.2.idle old
      member isOpen
  rcases open_after_cases firstMember firstOpen with firstOld | firstNew
  · rcases open_after_cases secondMember secondOpen with secondOld | secondNew
    · exact inv.single first firstOld second secondOld firstOpen secondOpen
        same
    · exact (idle second first secondNew firstOld firstOpen same).elim
  · rcases open_after_cases secondMember secondOpen with secondOld | secondNew
    · exact (idle first second firstNew secondOld secondOpen same.symm).elim
    · exact lawful.openedOnce first second firstNew secondNew

theorem Lawful.attemptIds (lawful : Lawful dialect call stage db state)
    (inv : Inv db) : ∀ attempt ∈ (after state.pending db).attempts.rows,
      attempt.id < (after state.pending db).nextAttempt ∧
        attempt.jobId < (after state.pending db).nextJob := by
  intro attempt member
  have grows := counters_after state.pending db
  obtain ⟨old, origin, sameJob, _⟩ :=
    attempts_after_cases (Table.get_of_mem member)
  rw [sameJob]
  rcases origin with isOld | ⟨inserted, keyed⟩
  · have keyed : old.id = attempt.id := Table.key_of_get isOld
    have bounds := inv.attemptIds old (Table.mem_of_get isOld)
    rw [keyed] at bounds
    exact ⟨lt_of_lt_of_le bounds.1 grows.2, lt_of_lt_of_le bounds.2 grows.1⟩
  · obtain ⟨_, _, claimable⟩ := lawful.opened old inserted
    obtain ⟨row, found, _⟩ := claimable.row
    have bound := inv.liveIds row (Table.mem_of_get found)
    rw [Table.key_of_get found] at bound
    rw [← keyed]
    exact ⟨lt_of_lt_of_le claimable.drawn grows.2,
      lt_of_lt_of_le bound grows.1⟩

theorem Lawful.liveIds (lawful : Lawful dialect call stage db state)
    (inv : Inv db) : ∀ row ∈ (after state.pending db).live.rows,
      row.id < (after state.pending db).nextJob := by
  intro row member
  refine lt_of_lt_of_le ?_ (counters_after state.pending db).1
  rcases live_after_cases (Table.get_of_mem member) with
    ⟨new, inserted, same⟩ | ⟨old, found, _⟩
  · rw [← same]
    exact (lawful.inserted new inserted).1.drawn
  · have keyed : old.id = row.id := Table.key_of_get found
    rw [← keyed]
    exact inv.liveIds old (Table.mem_of_get found)

theorem Lawful.historyIds (lawful : Lawful dialect call stage db state)
    (inv : Inv db) : ∀ row ∈ (after state.pending db).history.rows,
      row.id < (after state.pending db).nextJob := by
  intro row member
  refine lt_of_lt_of_le ?_ (counters_after state.pending db).1
  rcases history_after_cases member with old | new
  · exact inv.historyIds row old
  · obtain ⟨_, ⟨live, found, _⟩, _⟩ := lawful.moved row new
    have keyed : live.id = row.id := Table.key_of_get found
    rw [← keyed]
    exact inv.liveIds live (Table.mem_of_get found)

theorem Lawful.replacedIds (lawful : Lawful dialect call stage db state)
    (inv : Inv db) : ∀ job ∈ (after state.pending db).replaced,
      job < (after state.pending db).nextJob := by
  intro job member
  refine lt_of_lt_of_le ?_ (counters_after state.pending db).1
  rcases replaced_after_mem.mp member with old | new
  · exact inv.replacedIds job old
  · obtain ⟨row, found⟩ :=
      Option.ne_none_iff_exists'.mp (lawful.discarded job new).2
    have keyed : row.id = job := Table.key_of_get found
    rw [← keyed]
    exact inv.liveIds row (Table.mem_of_get found)

theorem Lawful.apart (lawful : Lawful dialect call stage db state)
    (complete : stage.complete = true) (inv : Inv db) :
    ∀ row ∈ (after state.pending db).history.rows,
      (after state.pending db).live.get row.id = none := by
  intro row member
  rcases history_after_cases member with old | new
  · apply live_after_none (inv.apart row old)
    intro new inserted same
    exact (lawful.inserted new inserted).1.history row old same.symm
  · obtain ⟨_, ⟨live, found, _⟩, _⟩ := lawful.moved row new
    exact live_after_removed (lawful.moves complete new) (Or.inl rfl)
      (lawful.noInsert (by simp [found]))

theorem Lawful.once (lawful : Lawful dialect call stage db state)
    (inv : Inv db) :
    ∀ first ∈ (after state.pending db).history.rows,
      ∀ second ∈ (after state.pending db).history.rows,
      first.id = second.id → first = second := by
  have fresh : ∀ old ∈ db.history.rows, ∀ new,
      .insertHistory new ∈ state.pending → old.id ≠ new.id := by
    intro old oldMember new inserted same
    obtain ⟨_, ⟨live, found, _⟩, _⟩ := lawful.moved new inserted
    have absent := inv.apart old oldMember
    rw [same, found] at absent
    cases absent
  intro first firstMember second secondMember same
  rcases history_after_cases firstMember with firstOld | firstNew
  · rcases history_after_cases secondMember with secondOld | secondNew
    · exact inv.once first firstOld second secondOld same
    · exact (fresh first firstOld second secondNew same).elim
  · rcases history_after_cases secondMember with secondOld | secondNew
    · exact (fresh second secondOld first firstNew same.symm).elim
    · exact lawful.movedOnce first second firstNew secondNew same

theorem Lawful.slots_after (lawful : Lawful dialect call stage db state)
    (inv : Inv db) : ∀ entry ∈ (after state.pending db).ready.rows,
      entry.slot ∈ slots := by
  intro entry member
  rcases ready_after_cases member with ⟨new, inserted, same⟩ |
    ⟨old, isOld, same⟩
  · exact same ▸ lawful.slotted new inserted
  · exact same ▸ inv.slotted old isOld

theorem Lawful.inv (lawful : Lawful dialect call stage db state)
    (complete : stage.complete = true) (inv : Inv db) :
    Inv (after state.pending db) where
  single := lawful.single inv
  attemptIds := lawful.attemptIds inv
  liveIds := lawful.liveIds inv
  historyIds := lawful.historyIds inv
  replacedIds := lawful.replacedIds inv
  apart := lawful.apart complete inv
  once := lawful.once inv
  slotted := lawful.slots_after inv
  versioned := versioned_after state.pending inv.versioned

end Commit

end Sqlery.Standalone
