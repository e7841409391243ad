import Mathlib.Control.ULift
import Sqlery.ReadCommitted.Alone
import Sqlery.Standalone.Claim
import Sqlery.Standalone.Calls
import Sqlery.Standalone.Frames

/-!
# A session with nobody beside it

What the statements and the transitions of a claim return, and the data they
leave, when no other transaction is open.
-/

namespace Sqlery.Standalone

open ReadCommitted
open Script

/-- From these committed data and this view of them the script returns the
value, and leaves that data and that view. -/
abbrev Sole (cfg : Config) {β : Type} (script : Sql β) (db view : Db)
    (value : β) (last lastView : Db) : Prop :=
  Script.Alone (system cfg) script db view value last lastView

/-- The tables jobs are judged by. -/
structure SameJobs (db next : Db) : Prop where
  live : next.live = db.live
  history : next.history = db.history
  attempts : next.attempts = db.attempts
  clock : next.clock = db.clock

theorem SameJobs.refl (db : Db) : SameJobs db db := ⟨rfl, rfl, rfl, rfl⟩

theorem SameJobs.trans {first second third : Db}
    (left : SameJobs first second) (right : SameJobs second third) :
    SameJobs first third :=
  ⟨right.live.trans left.live, right.history.trans left.history,
    right.attempts.trans left.attempts, right.clock.trans left.clock⟩

/-! ## Statements -/

section Statements

variable {cfg : Config} {db view : Db}

theorem targets_self {K V : Type} [DecidableEq K] {key : V → K}
    (table : Db → Table key) (admits : Db → V → Bool) (db : Db) :
    targets table admits db db = (table db).rows.filter (admits db) := by
  have same : ∀ row ∈ (table db).rows,
      (if admits db row then ((table db).get (key row)).filter (admits db)
        else none) = if admits db row then some row else none := by
    intro row member
    cases admitted : admits db row with
    | false => simp
    | true => simp [Table.get_of_mem member, admitted]
  rw [targets, List.filterMap_congr same]
  exact List.filterMap_eq_filter (p := admits db) ▸ rfl

theorem basis_self (dialect : Dialect) (db : Db) :
    basis dialect db db = db := by
  cases dialect <;> rfl

theorem sole_dml {K V : Type} [DecidableEq K] {key : V → K}
    {table : Db → Table key} {admits : Db → V → Bool} {write : V → Write} :
    Sole cfg (exec (dml table cfg admits write)) db view
      ((table view).rows.filter (admits view)) db
      (after (((table view).rows.filter (admits view)).map write) view) := by
  apply Alone.exec ⟨_, _, writerLock cfg.dialect, []⟩
  · simp only [dml, basis_self, targets_self]
  · rfl

/-- The rows of a table that are erased one by one. -/
theorem rows_foldl_erase {K V : Type} [DecidableEq K] {key : V → K}
    (rows : List V) (table : Table key) :
    (rows.foldl (fun table row => table.erase (key row)) table).rows =
      table.rows.filter fun row => rows.all fun gone => key row ≠ key gone := by
  induction rows generalizing table with
  | nil => simp
  | cons row rows ih =>
      rw [List.foldl_cons, ih]
      simp only [Table.erase, Table.retain, List.filter_filter, List.all_cons]
      congr 1
      funext other
      rw [Bool.and_comm]

theorem erase_admitted {K V : Type} [DecidableEq K] {key : V → K}
    (table : Table key) (admits : V → Bool) :
    (table.rows.filter admits).foldl
      (fun table row => table.erase (key row)) table =
        table.retain fun row => !admits row := by
  have same : ∀ row ∈ table.rows,
      ((table.rows.filter admits).all fun gone => key row ≠ key gone) =
        !admits row := by
    intro row member
    cases admitted : admits row with
    | true =>
        apply List.all_eq_false.mpr
        exact ⟨row, List.mem_filter.mpr ⟨member, admitted⟩, by simp⟩
    | false =>
        apply List.all_eq_true.mpr
        intro gone isGone
        obtain ⟨isRow, isAdmitted⟩ := List.mem_filter.mp isGone
        apply decide_eq_true
        intro sameKey
        have found := Table.get_of_mem isRow
        rw [← sameKey, Table.get_of_mem member] at found
        cases found
        rw [admitted] at isAdmitted
        cases isAdmitted
  have rows := rows_foldl_erase (table.rows.filter admits) table
  rw [List.filter_congr same] at rows
  cases erased : (table.rows.filter admits).foldl
    (fun table row => table.erase (key row)) table
  rw [erased] at rows
  subst rows
  rfl

/-- The data without the ready entries that are admitted. -/
def Db.dropReady (db : Db) (admits : Ready → Bool) : Db :=
  { db with ready := db.ready.retain fun entry => !admits entry }

def Db.dropBlocked (db : Db) (jobs : List JobId) : Db :=
  { db with blocked := db.blocked.retain fun row => !decide (row.jobId ∈ jobs) }

theorem after_deleteReady (entries : List Ready) (db : Db) :
    after (entries.map fun entry => .deleteReady entry.slot entry.jobId) db =
      { db with ready := entries.foldl (fun table entry =>
          table.erase (entry.slot, entry.jobId)) db.ready } := by
  induction entries generalizing db with
  | nil => rfl
  | cons entry entries ih =>
      rw [List.map_cons, after_cons, ih]
      rfl

theorem after_deleteBlocked (rows : List Blocked) (db : Db) :
    after (rows.map fun row => .deleteBlocked row.jobId row.dependencyId) db =
      { db with blocked := rows.foldl (fun table row =>
          table.erase (row.jobId, row.dependencyId)) db.blocked } := by
  induction rows generalizing db with
  | nil => rfl
  | cons row rows ih =>
      rw [List.map_cons, after_cons, ih]
      rfl

theorem sole_deleteReadyWhere (admits : Ready → Bool) :
    Sole cfg (deleteReadyWhere cfg admits) db view
      (view.ready.rows.filter admits).length db (view.dropReady admits) := by
  have deleted : after ((view.ready.rows.filter admits).map fun entry =>
      .deleteReady entry.slot entry.jobId) view = view.dropReady admits := by
    rw [after_deleteReady, erase_admitted]
    rfl
  apply Alone.bind sole_dml
  rw [deleted]
  exact .pure _

theorem sole_deleteBlockedStmt (jobs : List JobId) :
    Sole cfg (deleteBlockedStmt cfg jobs) db view
      (view.blocked.rows.filter fun row => decide (row.jobId ∈ jobs)).length
      db (view.dropBlocked jobs) := by
  have deleted : after ((view.blocked.rows.filter fun row =>
      decide (row.jobId ∈ jobs)).map fun row =>
        .deleteBlocked row.jobId row.dependencyId) view =
      view.dropBlocked jobs := by
    rw [after_deleteBlocked, erase_admitted]
    rfl
  apply Alone.bind sole_dml
  rw [deleted]
  exact .pure _

/-- Attempts of a job without an open one are not touched. -/
theorem sole_closeWhere {admits : Attempt → Bool} {now : Time}
    {outcome : Outcome}
    (closed : ∀ attempt ∈ view.attempts.rows, admits attempt = true →
      attempt.isOpen = false) :
    Sole cfg (closeWhere cfg admits now outcome) db view 0 db view := by
  have none : view.attempts.rows.filter
      (fun attempt => admits attempt && attempt.isOpen) = [] := by
    apply List.filter_eq_nil_iff.mpr
    intro attempt member isOpen
    simp only [Bool.and_eq_true] at isOpen
    rw [closed attempt member isOpen.1] at isOpen
    cases isOpen.2
  apply Alone.bind sole_dml
  rw [none]
  exact .pure _

theorem sole_lockForMove {fence : MoveFence} :
    Sole cfg (lockForMove cfg fence) db view
      (view.live.rows.filter (fence.admits view)) db view := by
  unfold lockForMove
  split
  · apply Alone.exec ⟨_, [], _, []⟩
    · simp only [selectForUpdate, targets_self]
      rfl
    · rfl
  · exact .read _

/-- The row a move writes, of the live row with the given columns. -/
def Db.move (db : Db) (job : Job) (status : Status) (values : Values) : Db :=
  { db with
    history := db.history.insert (historyRow db job status values db.clock)
    live := db.live.erase job.id }

/-- A move of an idle job. -/
theorem sole_finishIn {fence : MoveFence} {job : Job} {status : Status}
    {values : Values} (found : view.live.get fence.jobId = some job)
    (idle : view.hasOpenAttempt fence.jobId = false)
    (isAdmitted : fence.admits view job = true) :
    Sole cfg (finishIn cfg fence status values) db view true db
      (view.move job status values) := by
  have isJob : job.id = fence.jobId := Table.key_of_get found
  have keyed : ∀ (at_ : Db) (row : Job), fence.admits at_ row = true →
      row.id = fence.jobId := by
    intro at_ row admitted
    simp only [MoveFence.admits, Bool.and_eq_true, decide_eq_true_eq]
      at admitted
    exact admitted.1.1.1.1
  have selected : view.live.rows.filter (fence.admits view) = [job] :=
    Table.filter_of_get found isAdmitted (keyed view)
  apply Alone.bind (.read _)
  apply Alone.bind sole_lockForMove
  rw [selected]
  have inserted : Sole cfg (insertHistory cfg fence status values view.clock)
      db view [historyRow view job status values view.clock] db
      { view with
        history := view.history.insert
          (historyRow view job status values view.clock) } := by
    refine Alone.exec (⟨[historyRow view job status values view.clock],
      [.insertHistory (historyRow view job status values view.clock)],
      writerLock cfg.dialect, []⟩ : Effect Write Lock (List Job)) ?_ rfl
    simp only [basis_self, selected]
    rfl
  apply Alone.bind inserted
  have deleted : Sole cfg (deleteLive cfg fence) db
      { view with
        history := view.history.insert
          (historyRow view job status values view.clock) }
      1 db (view.move job status values) := by
    have still : view.live.rows.filter (fence.admits { view with
        history := view.history.insert
          (historyRow view job status values view.clock) }) = [job] :=
      Table.filter_of_get found isAdmitted (keyed _)
    apply Alone.bind sole_dml
    rw [still]
    exact .pure _
  apply Alone.bind deleted
  apply Alone.bind (.read _)
  apply Alone.bind
  · apply sole_closeWhere
    intro attempt member isJob
    cases isOpen : attempt.isOpen with
    | false => rfl
    | true =>
        have runs : view.hasOpenAttempt fence.jobId = true :=
          List.any_eq_true.mpr ⟨attempt, member, by
            simpa [Attempt.runs, isOpen] using isJob⟩
        rw [idle] at runs
        cases runs
  · exact .pure _

/-- A lock nobody holds is granted, and a row nobody holds is not skipped. -/
theorem selectSkipLocked_self {K V : Type} [DecidableEq K] {key : V → K}
    (table : Db → Table key) (lock : V → Lock) (admits : Db → V → Bool)
    {order : List V → List V} (ordered : ∀ rows row, row ∈ order rows →
      row ∈ rows) (limit : Nat) (db : Db) :
    selectSkipLocked table lock admits order limit db db .none =
      some {
        result := (order ((table db).rows.filter (admits db))).take limit
        locks := ((order ((table db).rows.filter (admits db))).take limit).map
          lock } := by
  have same : ∀ row ∈ order ((table db).rows.filter (admits db)),
      (if (Others.none : Others Lock).busy (lock row) then none
        else ((table db).get (key row)).filter (admits db)) = some row := by
    intro row member
    obtain ⟨isRow, admitted⟩ := List.mem_filter.mp (ordered _ row member)
    simp [Others.none, Table.get_of_mem isRow, admitted]
  simp only [selectSkipLocked]
  rw [List.filterMap_congr same, List.filterMap_some]

/-- A select that locks, or only reads on SQLite. -/
theorem sole_selectSkipLocked {K V : Type} [DecidableEq K] {key : V → K}
    {table : Db → Table key} {lock : V → Lock} {admits : Db → V → Bool}
    {order : List V → List V} (ordered : ∀ rows row, row ∈ order rows →
      row ∈ rows) (limit : Nat) :
    Sole cfg (exec (selectSkipLocked table lock admits order limit)) db view
      ((order ((table view).rows.filter (admits view))).take limit) db
      view := by
  refine Alone.exec _ (selectSkipLocked_self table lock admits ordered limit
    view) rfl

end Statements

/-! ## Entries and attempts -/

section Transitions

variable {cfg : Config} {db view : Db}

theorem mem_inClaimOrder (entries : List Ready) (entry : Ready) :
    entry ∈ inClaimOrder entries ↔ entry ∈ entries :=
  List.mem_insertionSort _

/-- The first entry a claim may take. -/
def Db.nextEntry (db : Db) (queues : List String) (now : Time)
    (cursor : Option Cursor) : Option Ready :=
  (inClaimOrder (db.ready.rows.filter (claimable queues now cursor))).head?

theorem sole_nextEntryStmt {queues : List String} {now : Time}
    {cursor : Option Cursor} :
    Sole cfg (nextEntryStmt cfg queues now cursor) db view
      (view.nextEntry queues now cursor) db view := by
  unfold nextEntryStmt
  split
  · apply Alone.bind (sole_selectSkipLocked
      (fun rows row member => (mem_inClaimOrder rows row).mp member) 1)
    have first : ∀ entries : List Ready,
        (entries.take 1).head? = entries.head? := by
      intro entries
      cases entries <;> rfl
    rw [Db.nextEntry, first]
    exact .pure _
  · exact .read _

/-- The entry's job, if it waits. -/
def Db.waitingJob (db : Db) (job : JobId) : Option Job :=
  (db.live.get job).filter db.waiting

theorem sole_jobOfEntry {entry : Ready} :
    Sole cfg (jobOfEntry entry true) db view (view.live.get entry.jobId) db
      view := by
  apply Alone.bind (.read _)
  cases found : (view.live.get entry.jobId).filter fun job =>
      decide (job.createdAt = entry.createdAt) with
  | none => exact .read _
  | some job =>
      rw [(Option.filter_eq_some_iff.mp found).1]
      exact .pure _

theorem sole_ifWaiting {found : Option Job} :
    Sole cfg (ifWaiting found) db view (found.filter view.waiting) db view := by
  cases found with
  | none => exact .pure _
  | some job =>
      unfold ifWaiting
      by_cases queued : job.status = .queued
      · simp only [queued, ne_eq, not_true, if_false]
        apply Alone.bind (.read _)
        cases running : view.hasOpenAttempt job.id <;>
          simp only [Option.filter, Db.waiting, queued, running] <;>
            exact .pure _
      · simp only [queued, ne_eq, not_false_iff, if_true]
        simp only [Option.filter, Db.waiting, queued]
        exact .pure _

/-! ## Judging a candidate -/

/-- The dependencies of a job as these data show them. -/
def Db.verdict (db : Db) (deps : List JobId) : DependencyVerdict :=
  (judgeDependencies (m := ULift.{1}) deps
    (fun dep => (db.jobAll.filter fun row => row.id ∈ deps).reverse.find?
      fun row => row.id = dep)
    fun job => ⟨db.latestRetry job⟩).down

theorem sole_newestRetry (hops : Nat) (dep : Job) :
    Sole cfg (newestRetry (fun job => read fun db => db.latestRetry job) hops
        dep) db view
      (newestRetry (m := ULift.{1}) (fun job => ⟨view.latestRetry job⟩) hops
        dep).down db view := by
  induction hops generalizing dep with
  | zero => exact .pure _
  | succ hops ih =>
      simp only [newestRetry]
      split
      · apply Alone.bind (.read _)
        change Sole cfg _ db view (ULift.down (bind
          (ULift.up (view.latestRetry dep.id)) _)) db view
        cases view.latestRetry dep.id with
        | none => exact .pure _
        | some child => exact ih child
      · exact .pure _

theorem sole_judge (deps : List JobId) :
    Sole cfg (judge deps) db view (view.verdict deps) db view := by
  apply Alone.bind (.read _)
  unfold Db.verdict judgeDependencies
  generalize (view.jobAll.filter fun row => row.id ∈ deps) = rows
  generalize ([] : List JobId) = failed
  generalize false = pending
  induction deps generalizing failed pending with
  | nil => exact .pure _
  | cons dep rest ih =>
      simp only [judgeFrom]
      split
      · exact ih _ _
      · apply Alone.bind (sole_newestRetry _ _)
        change Sole cfg _ db view (ULift.down (
          let newest := (newestRetry (m := ULift.{1})
            (fun job => ⟨view.latestRetry job⟩) maxChainHops _).down
          if newest.status = .success then _
          else if newest.status = .failed &&
              !isRetryPending newest.terminationReason then _
          else _)) db view
        dsimp only
        split
        · exact ih _ _
        · split
          · exact ih _ _
          · exact ih _ _

def Db.countTag (db : Db) (tag : String) (statuses : List Status)
    (since : Option Time) : Nat :=
  (db.jobAll.filter fun row =>
    row.status ∈ statuses &&
      since.all (fun start => row.startedAt.any (start ≤ ·)) &&
      tag ∈ row.tags).length

/-- The tag has reached one of its limits. -/
def Db.overTag (db : Db) (cfg : Config) (now : Time) (tag : String) : Bool :=
  (cfg.tagConcurrencyLimits.lookup tag).any (fun limit =>
      limit ≤ db.countTag tag [.running] none) ||
    (cfg.tagRateLimits.lookup tag).any fun rate =>
      rate.any fun limit => limit.1 ≤
        db.countTag tag [.running, .success, .failed] (some (now - limit.2))

theorem sole_overConcurrency {tag : String} :
    Sole cfg (overConcurrency cfg tag) db view
      ((cfg.tagConcurrencyLimits.lookup tag).any fun limit =>
        limit ≤ view.countTag tag [.running] none) db view := by
  unfold overConcurrency
  cases cfg.tagConcurrencyLimits.lookup tag with
  | none => exact .pure _
  | some limit => exact .bind (.read _) (.pure _)

theorem sole_overRate {now : Time} {tag : String} :
    Sole cfg (overRate cfg now tag) db view
      ((cfg.tagRateLimits.lookup tag).any fun rate => rate.any fun limit =>
        limit.1 ≤ view.countTag tag [.running, .success, .failed]
          (some (now - limit.2))) db view := by
  unfold overRate
  cases cfg.tagRateLimits.lookup tag with
  | none => exact .pure _
  | some rate =>
      cases rate with
      | none => exact .pure _
      | some limit => exact .bind (.read _) (.pure _)

theorem sole_overLimit {now : Time} (tags : List String) :
    Sole cfg (overLimit cfg now tags) db view
      (tags.any (view.overTag cfg now)) db view := by
  induction tags with
  | nil => exact .pure _
  | cons tag rest ih =>
      rw [List.any_cons]
      apply Alone.bind sole_overConcurrency
      cases concurrency : (cfg.tagConcurrencyLimits.lookup tag).any fun limit =>
          decide (limit ≤ view.countTag tag [.running] none) with
      | true =>
          simp only [Db.overTag, concurrency, Bool.true_or]
          exact .pure _
      | false =>
          apply Alone.bind sole_overRate
          cases rate : (cfg.tagRateLimits.lookup tag).any fun rate =>
              rate.any fun limit => decide (limit.1 ≤
                view.countTag tag [.running, .success, .failed]
                  (some (now - limit.2))) with
          | true =>
              simp only [Db.overTag, concurrency, rate, Bool.false_or,
                Bool.true_or]
              exact .pure _
          | false =>
              simp only [Db.overTag, concurrency, rate, Bool.false_or]
              exact ih

theorem sole_lockTags (tags : List String) :
    Sole cfg (lockTags cfg tags) db view true db view := by
  unfold lockTags
  split
  · induction tags with
    | nil => exact .pure _
    | cons tag rest ih =>
        have locked : Sole cfg (tryTagLock tag) db view true db view :=
          Alone.exec ⟨true, [], [.tag tag], []⟩ rfl rfl
        exact .bind locked ih
  · exact .pure _

/-- The tags without a limit do not matter. -/
theorem any_limited (cfg : Config) (now : Time) (tags : List String) :
    ((tags.filter fun tag =>
      (cfg.tagConcurrencyLimits.lookup tag).isSome ||
        (cfg.tagRateLimits.lookup tag).isSome).insertionSort (· ≤ ·)).any
          (view.overTag cfg now) = tags.any (view.overTag cfg now) := by
  rw [(List.perm_insertionSort _ _).any_eq, List.any_filter]
  congr 1
  funext tag
  simp only [Db.overTag]
  cases cfg.tagConcurrencyLimits.lookup tag <;>
    cases cfg.tagRateLimits.lookup tag <;> simp

theorem sole_tagLimited {job : Job} {now : Time} :
    Sole cfg (tagLimited cfg job now) db view
      (job.tags.any (view.overTag cfg now)) db view := by
  unfold tagLimited
  rw [← any_limited]
  dsimp only
  split
  · rename_i none
    rw [none]
    exact .pure _
  · exact .bind (sole_lockTags _) (sole_overLimit _)

/-! ## Starting an attempt -/

theorem sole_lockJob {job : Job} (found : view.live.get job.id = some job) :
    Sole cfg (lockJob cfg job) db view (some job) db view := by
  have selected : view.live.rows.filter (sameRow job) = [job] :=
    Table.filter_of_get found (by simp [sameRow]) fun other same => by
      simp only [sameRow, Bool.and_eq_true, decide_eq_true_eq] at same
      exact same.1
  unfold lockJob
  split
  · apply Alone.bind (sole_selectSkipLocked (fun _ _ member => member) 1)
    rw [selected]
    exact .pure _
  · have first : Sole cfg (read fun db =>
        (db.live.rows.filter (sameRow job)).head?) db view
        (view.live.rows.filter (sameRow job)).head? db view := .read _
    rw [selected] at first
    exact first

/-- The counter moves aside of the writes of a transaction. -/
theorem nextAttempt_aside (writes : List Write) (db : Db) :
    after writes (Write.nextAttempt.apply db) =
      Write.nextAttempt.apply (after writes db) := by
  induction writes generalizing db with
  | nil => rfl
  | cons write writes ih =>
      have commutes : write.apply (Write.nextAttempt.apply db) =
          Write.nextAttempt.apply (write.apply db) := by
        cases write <;> rfl
      rw [after_cons, after_cons, commutes, ih]

/-- An open attempt of the job has been inserted, and nothing else happened that
jobs or blocked rows show. -/
structure Opens (job : JobId) (db next : Db) : Prop where
  live : next.live = db.live
  history : next.history = db.history
  ready : next.ready = db.ready
  blocked : next.blocked = db.blocked
  attempts : ∃ attempt : Attempt, attempt.jobId = job ∧
    attempt.isOpen = true ∧ next.attempts = db.attempts.insert attempt

theorem sole_insertAttempt {job : JobId} {worker : Option WorkerId}
    {now : Time} : ∃ handle last lastView,
      Sole cfg (insertAttempt cfg job worker now) db view handle last
        lastView ∧ handle.jobId = job ∧ Opens job view lastView := by
  refine ⟨_, _, _, Alone.execAtOnce _ rfl (fun writes => ?_), rfl, rfl, rfl,
    rfl, rfl, _, rfl, rfl, rfl⟩
  exact nextAttempt_aside writes db

theorem sole_startAttempt {job : Job} {worker : Option WorkerId} {now : Time}
    (found : view.live.get job.id = some job)
    (waiting : view.waiting job = true) :
    ∃ handle last lastView,
      Sole cfg (startAttempt cfg job worker now) db view
        (some handle, .claimed) last lastView ∧
      handle.jobId = job.id ∧ Opens job.id view lastView := by
  simp only [Db.waiting, Bool.and_eq_true, decide_eq_true_eq,
    Bool.not_eq_true'] at waiting
  obtain ⟨handle, last, lastView, ran, isJob, opens⟩ :
      ∃ handle last lastView,
        Sole cfg (insertAttempt cfg job.id worker now) db view handle last
          lastView ∧ handle.jobId = job.id ∧ Opens job.id view lastView :=
    sole_insertAttempt
  refine ⟨handle, last, lastView, ?_, isJob, opens⟩
  apply Alone.bind (sole_lockJob found)
  apply Alone.bind (.read _)
  have isOk : claimVerdict job.status job.version job.version
      (view.hasOpenAttempt job.id) = .ok :=
    claimVerdict_eq_ok.mpr ⟨waiting.1, waiting.2, rfl⟩
  rw [if_pos isOk]
  exact .bind ran (.pure _)

/-! ## Failing and blocking a candidate -/

def ofJobs (jobs : List JobId) (entry : Ready) : Bool :=
  entry.slot ∈ slots && entry.jobId ∈ jobs

/-- The data after a waiting job has been failed. -/
def Db.fail (db : Db) (job : Job) (error reason : String) (now : Time) : Db :=
  ((db.dropReady (ofJobs [job.id])).dropBlocked [job.id]).move job .failed
    { error := some error
      terminationReason := some reason
      finishedAt := some now }

theorem sole_failQueued {job : Job} {error reason : String} {now : Time}
    (found : view.live.get job.id = some job)
    (waiting : view.waiting job = true) :
    Sole cfg (failQueued cfg job error reason now) db view true db
      (view.fail job error reason now) := by
  simp only [Db.waiting, Bool.and_eq_true, decide_eq_true_eq,
    Bool.not_eq_true'] at waiting
  apply Alone.bind (sole_deleteReadyWhere _)
  apply Alone.bind (sole_deleteBlockedStmt _)
  apply sole_finishIn found waiting.2
  have idle : ((view.dropReady (ofJobs [job.id])).dropBlocked
      [job.id]).hasOpenAttempt job.id = false := waiting.2
  simp only [MoveFence.admits, Option.all_some, Option.all_none,
    waiting.1, List.mem_singleton, decide_true, Bool.and_true, Bool.true_and,
    Bool.not_true, Bool.false_or]
  exact congrArg not idle

/-- An insert into the blocked table changes nothing else; every row that was
to be inserted is there under its key. -/
theorem sole_insertBlockedStmt (rows : List Blocked) : ∃ blocked,
    Sole cfg (insertBlockedStmt cfg rows) db view () db
        { view with blocked } ∧
      (∀ row ∈ view.blocked.rows, row ∈ blocked.rows) ∧
      (∀ row ∈ blocked.rows, row ∈ view.blocked.rows ∨ row ∈ rows) ∧
      ∀ row ∈ rows, (blocked.get (row.jobId, row.dependencyId)).isSome := by
  have inserts : ∀ (rows : List Blocked) (at_ : Db),
      (∀ row ∈ view.blocked.rows, row ∈ at_.blocked.rows) → ∃ blocked,
        after (rows.map fun row =>
          if (view.blocked.get (row.jobId, row.dependencyId)).isSome then
            .foundBlocked row.jobId row.dependencyId
          else .insertBlocked row) at_ = { at_ with blocked } ∧
        (∀ row ∈ at_.blocked.rows, row ∈ blocked.rows) ∧
        (∀ row ∈ blocked.rows, row ∈ at_.blocked.rows ∨ row ∈ rows) ∧
        ∀ row ∈ rows, (blocked.get (row.jobId, row.dependencyId)).isSome := by
    intro rows
    induction rows with
    | nil =>
        exact fun at_ _ => ⟨at_.blocked, rfl, fun _ stored => stored,
          fun _ stored => Or.inl stored, by simp⟩
    | cons row rest ih =>
        intro at_ kept
        obtain ⟨next, wrote, same, more, fewer, stored, isStored, isKey⟩ :
            ∃ next : Db,
              Write.apply (if (view.blocked.get
                (row.jobId, row.dependencyId)).isSome
                then .foundBlocked row.jobId row.dependencyId
                else .insertBlocked row) at_ = next ∧
              next = { at_ with blocked := next.blocked } ∧
              (∀ other ∈ at_.blocked.rows, other ∈ next.blocked.rows) ∧
              (∀ other ∈ next.blocked.rows,
                other ∈ at_.blocked.rows ∨ other = row) ∧
              ∃ stored ∈ next.blocked.rows, (stored.jobId,
                stored.dependencyId) = (row.jobId, row.dependencyId) := by
          cases found : view.blocked.get (row.jobId, row.dependencyId) with
          | some stored =>
              have isKey := Table.key_of_get found
              exact ⟨at_, by simp [Write.apply], rfl, fun _ member => member,
                fun _ member => Or.inl member, stored,
                kept stored (Table.mem_of_get found), isKey⟩
          | none =>
              refine ⟨{ at_ with blocked := at_.blocked.insert row },
                by simp [Write.apply], rfl,
                fun _ member => Table.mem_insert_iff.mpr (Or.inr member),
                fun other member => ?_, ?_⟩
              · rcases Table.mem_insert_iff.mp member with ⟨same, _⟩ | old
                · exact Or.inr same
                · exact Or.inl old
              · cases present : at_.blocked.get
                    (row.jobId, row.dependencyId) with
                | some stored =>
                    have isKey := Table.key_of_get present
                    exact ⟨stored, Table.mem_insert_iff.mpr
                      (Or.inr (Table.mem_of_get present)), isKey⟩
                | none =>
                    exact ⟨row, Table.mem_insert_iff.mpr
                      (Or.inl ⟨rfl, present⟩), rfl⟩
        obtain ⟨blocked, after_, later, origin, all⟩ :=
          ih next fun other member => more other (kept other member)
        refine ⟨blocked, ?_, fun other member =>
          later other (more other member),
          ?_, ?_⟩
        · rw [List.map_cons, after_cons, wrote, after_, same]
        · intro other member
          rcases origin other member with earlier | inRest
          · rcases fewer other earlier with old | rfl
            · exact Or.inl old
            · exact Or.inr List.mem_cons_self
          · exact Or.inr (List.mem_cons_of_mem _ inRest)
        · intro other member
          rcases List.mem_cons.mp member with rfl | inRest
          · rw [← isKey, Table.get_of_mem (later stored isStored)]
            rfl
          · exact all other inRest
  obtain ⟨blocked, written, kept, origin, all⟩ :=
    inserts rows view fun _ stored => stored
  refine ⟨blocked, ?_, kept, origin, all⟩
  rw [← written]
  refine Alone.exec ⟨(), _, writerLock cfg.dialect, []⟩ ?_ rfl
  simp [insertUnlessFound, Others.none]

/-- An insert of ready entries leaves the other tables and the entries that
were there, one entry at least for each of the jobs, and none for others. -/
theorem sole_insertReadyStmt (entries : List Ready) : ∃ ready,
    Sole cfg (insertReadyStmt cfg entries) db view () db { view with ready } ∧
      (∀ entry ∈ view.ready.rows, entry ∈ ready.rows) ∧
      (∀ entry ∈ entries, ∃ stored ∈ ready.rows,
        stored.jobId = entry.jobId) ∧
      ∀ stored ∈ ready.rows, stored ∈ view.ready.rows ∨
        ∃ entry ∈ entries, stored.jobId = entry.jobId := by
  have inserts : ∀ (entries : List Ready) (at_ : Db),
      (∀ entry ∈ view.ready.rows, entry ∈ at_.ready.rows) → ∃ ready,
        after (entries.map fun entry =>
          if (view.ready.get (entry.slot, entry.jobId)).isSome then
            .foundReady entry.slot entry.jobId
          else .insertReady entry) at_ = { at_ with ready } ∧
        (∀ entry ∈ at_.ready.rows, entry ∈ ready.rows) ∧
        (∀ entry ∈ entries, ∃ stored ∈ ready.rows,
          stored.jobId = entry.jobId) ∧
        ∀ stored ∈ ready.rows, stored ∈ at_.ready.rows ∨
          ∃ entry ∈ entries, stored.jobId = entry.jobId := by
    intro entries
    induction entries with
    | nil =>
        exact fun at_ _ => ⟨at_.ready, rfl, fun _ stored => stored, by simp,
          fun _ stored => Or.inl stored⟩
    | cons entry rest ih =>
        intro at_ kept
        obtain ⟨next, wrote, more, own⟩ : ∃ next : Db,
            Write.apply (if (view.ready.get (entry.slot, entry.jobId)).isSome
              then .foundReady entry.slot entry.jobId
              else .insertReady entry) at_ = next ∧
            (∀ other ∈ at_.ready.rows, other ∈ next.ready.rows) ∧
            next = { at_ with ready := next.ready } ∧
            (∃ stored ∈ next.ready.rows, stored.jobId = entry.jobId) ∧
            ∀ stored ∈ next.ready.rows, stored ∈ at_.ready.rows ∨
              stored = entry := by
          cases found : view.ready.get (entry.slot, entry.jobId) with
          | some stored =>
              have key := Table.key_of_get found
              exact ⟨at_, by simp [Write.apply], fun _ member => member, rfl,
                ⟨stored, kept stored (Table.mem_of_get found),
                  congrArg Prod.snd key⟩, fun _ member => Or.inl member⟩
          | none =>
              refine ⟨{ at_ with ready := at_.ready.insert entry },
                by simp [Write.apply],
                fun _ member => Table.mem_insert_iff.mpr (Or.inr member), rfl,
                ?_, ?_⟩
              · cases present : at_.ready.get (entry.slot, entry.jobId) with
                | some stored =>
                    exact ⟨stored, Table.mem_insert_iff.mpr
                      (Or.inr (Table.mem_of_get present)),
                      congrArg Prod.snd (Table.key_of_get present)⟩
                | none =>
                    exact ⟨entry, Table.mem_insert_iff.mpr
                      (Or.inl ⟨rfl, present⟩), rfl⟩
              · intro stored member
                rcases Table.mem_insert_iff.mp member with ⟨isEntry, _⟩ | old
                · exact Or.inr isEntry
                · exact Or.inl old
        obtain ⟨same, ⟨stored, isStored, isJob⟩, onlyEntry⟩ := own
        obtain ⟨ready, after_, later, all, only⟩ := ih next fun other member =>
          more other (kept other member)
        refine ⟨ready, ?_, fun other member => later other (more other member),
          ?_, ?_⟩
        · rw [List.map_cons, after_cons, wrote, after_, same]
        · intro other member
          rcases List.mem_cons.mp member with rfl | inRest
          · exact ⟨stored, later stored isStored, isJob⟩
          · exact all other inRest
        · intro other member
          rcases only other member with early | ⟨cause, inRest, isJob⟩
          · rcases onlyEntry other early with old | rfl
            · exact Or.inl old
            · exact Or.inr ⟨other, List.mem_cons_self, rfl⟩
          · exact Or.inr ⟨cause, List.mem_cons_of_mem _ inRest, isJob⟩
  obtain ⟨ready, written, kept, all, only⟩ :=
    inserts entries view fun _ stored => stored
  refine ⟨ready, ?_, kept, all, only⟩
  rw [← written]
  refine Alone.exec ⟨(), _, writerLock cfg.dialect, []⟩ ?_ rfl
  simp [insertUnlessFound, Others.none]

/-- Every job without an open attempt has an entry then, and only these jobs
have new ones. -/
theorem sole_writeReady {jobs : List Job} {fresh : Bool} : ∃ ready,
    Sole cfg (writeReady cfg jobs fresh) db view () db { view with ready } ∧
      (∀ entry ∈ view.ready.rows, entry ∈ ready.rows) ∧
      (∀ job ∈ jobs, view.hasOpenAttempt job.id = false →
        ∃ entry ∈ ready.rows, entry.jobId = job.id) ∧
      ∀ entry ∈ ready.rows, entry ∈ view.ready.rows ∨
        ∃ job ∈ jobs, entry.jobId = job.id := by
  obtain ⟨running, looked, open_⟩ : ∃ running,
      Sole cfg (runningAmong jobs fresh) db view running db view ∧
        ∀ id ∈ running, view.hasOpenAttempt id = true := by
    unfold runningAmong
    split
    · exact ⟨_, .pure _, by simp⟩
    · exact ⟨_, .read _, fun id member => (List.mem_filter.mp member).2⟩
  have idle : ∀ job ∈ jobs, view.hasOpenAttempt job.id = false →
      job ∈ jobs.filter fun job => job.id ∉ running := by
    intro job member closed
    apply List.mem_filter.mpr ⟨member, ?_⟩
    apply decide_eq_true
    intro runs
    rw [open_ job.id runs] at closed
    cases closed
  obtain ⟨slot, isSlot⟩ : ∃ slot,
      Sole cfg (writerSlot cfg) db view slot db view := by
    unfold writerSlot
    split
    · exact ⟨_, .read _⟩
    · exact ⟨_, .pure _⟩
  by_cases none : (jobs.filter fun job => job.id ∉ running) = []
  · refine ⟨view.ready, .bind looked ?_, fun _ stored => stored, ?_,
      fun _ stored => Or.inl stored⟩
    · simp only [none, if_true]
      exact .pure _
    · intro job member closed
      have listed := idle job member closed
      rw [none] at listed
      cases listed
  · obtain ⟨ready, inserted, kept, all, only⟩ : ∃ ready,
        Sole cfg (insertReadyStmt cfg ((jobs.filter fun job =>
          job.id ∉ running).map fun job => readyValues job slot)) db view ()
          db { view with ready } ∧
        (∀ entry ∈ view.ready.rows, entry ∈ ready.rows) ∧
        (∀ entry ∈ (jobs.filter fun job => job.id ∉ running).map fun job =>
          readyValues job slot, ∃ stored ∈ ready.rows,
            stored.jobId = entry.jobId) ∧
        ∀ stored ∈ ready.rows, stored ∈ view.ready.rows ∨
          ∃ entry ∈ (jobs.filter fun job => job.id ∉ running).map fun job =>
            readyValues job slot, stored.jobId = entry.jobId :=
      sole_insertReadyStmt _
    refine ⟨ready, .bind looked ?_, kept, ?_, ?_⟩
    · simp only [none, if_false]
      exact .bind isSlot inserted
    · intro job member closed
      exact all (readyValues job slot)
        (List.mem_map_of_mem (idle job member closed))
    · intro stored member
      rcases only stored member with old | ⟨entry, listed, isJob⟩
      · exact Or.inl old
      · obtain ⟨job, isIdle, rfl⟩ := List.mem_map.mp listed
        exact Or.inr ⟨job, (List.mem_filter.mp isIdle).1, isJob⟩

end Transitions

/-! ## Re-judging a blocked job -/

section Recheck

variable {cfg : Config} {db : Db}

/-- The script returns, and leaves so many fewer live jobs at least. -/
def Settles (cfg : Config) {β : Type} (script : Sql β) (db : Db) (value : β)
    (fewer : Nat) (last : Db) : Prop :=
  Sole cfg script db db value last last ∧
    last.live.rows.length + fewer ≤ db.live.rows.length

theorem live_fail_length {job : Job} {error reason : String} {now : Time}
    (found : db.live.get job.id = some job) :
    (db.fail job error reason now).live.rows.length + 1 ≤
      db.live.rows.length := by
  have sublist : (db.live.erase job.id).rows.Sublist db.live.rows :=
    List.filter_sublist
  apply Nat.lt_of_le_of_ne sublist.length_le
  intro same
  have member : job ∈ (db.live.erase job.id).rows := by
    rw [sublist.eq_of_length same]
    exact Table.mem_of_get found
  have gone : (db.live.erase job.id).get job.id = none :=
    Table.get_erase_self _ _
  rw [Table.get_of_mem member] at gone
  cases gone

/-- What the re-judging of a blocked job leaves. -/
inductive Rechecked (db : Db) (id : JobId) (createdAt : Time) :
    Recheck → Db → Prop where
  | blocked {job : Job} : db.waitingJob id = some job →
      (db.verdict (dependencyIds job)).state = .pending →
      Rechecked db id createdAt .blocked db
  | failed {job : Job} {error : String} : db.waitingJob id = some job →
      (db.verdict (dependencyIds job)).state = .failed →
      Rechecked db id createdAt .failed
        (db.fail job error "dependency_failed" db.clock)
  | ready {job : Job} {ready : Table fun entry : Ready =>
        (entry.slot, entry.jobId)} : db.waitingJob id = some job →
      (db.verdict (dependencyIds job)).state = .met →
      (∀ entry ∈ db.ready.rows, entry ∈ ready.rows) →
      (∃ entry ∈ ready.rows, entry.jobId = id) →
      (∀ entry ∈ ready.rows, entry ∈ db.ready.rows ∨ entry.jobId = id) →
      Rechecked db id createdAt .ready { db.dropBlocked [id] with ready }
  | gone : (∀ job, db.waitingJob id = some job → job.createdAt ≠ createdAt) →
      Rechecked db id createdAt .gone (db.dropBlocked [id])

theorem waitingJob_of_dated {id : JobId} {createdAt : Time} {job : Job} :
    ((db.live.get id).filter fun job =>
      decide (job.createdAt = createdAt)).filter db.waiting = some job ↔
      db.waitingJob id = some job ∧ job.createdAt = createdAt := by
  simp only [Db.waitingJob, Option.filter_eq_some_iff, decide_eq_true_eq]
  exact and_right_comm

theorem sole_recheckBlocked (id : JobId) (createdAt : Time) :
    ∃ outcome last, Sole cfg (recheckBlocked cfg id createdAt) db db outcome
      last last ∧ Rechecked db id createdAt outcome last := by
  have looked : Sole cfg (read fun db => (db.live.get id).filter fun job =>
      decide (job.createdAt = createdAt)) db db
      ((db.live.get id).filter fun job => decide (job.createdAt = createdAt))
      db db := .read _
  cases waits : ((db.live.get id).filter fun job =>
      decide (job.createdAt = createdAt)).filter db.waiting with
  | none =>
      have gone : Sole cfg (ifWaiting ((db.live.get id).filter fun job =>
          decide (job.createdAt = createdAt))) db db none db db :=
        waits ▸ sole_ifWaiting
      refine ⟨.gone, db.dropBlocked [id], .session (.bind looked (.bind gone
        (.bind (sole_deleteBlockedStmt _) (.bind .commit (.pure _))))),
        .gone ?_⟩
      intro job waiting dated
      rw [waitingJob_of_dated.mpr ⟨waiting, dated⟩] at waits
      cases waits
  | some row =>
      obtain ⟨waiting, _⟩ := waitingJob_of_dated.mp waits
      obtain ⟨live, idle⟩ := Option.filter_eq_some_iff.mp waiting
      have isJob : row.id = id := Table.key_of_get live
      subst isJob
      have found : Sole cfg (ifWaiting ((db.live.get row.id).filter fun job =>
          decide (job.createdAt = createdAt))) db db (some row) db db :=
        waits ▸ sole_ifWaiting
      have judged : Sole cfg (judge (dependencyIds row)) db db
          (db.verdict (dependencyIds row)) db db := sole_judge _
      cases state : (db.verdict (dependencyIds row)).state with
      | pending =>
          refine ⟨.blocked, db, ?_, .blocked waiting state⟩
          apply Alone.session
          apply Alone.bind looked
          apply Alone.bind found
          apply Alone.bind judged
          simp only [state]
          exact .bind .commit (.pure _)
      | failed =>
          refine ⟨.failed, db.fail row
            (dependenciesFailed (db.verdict (dependencyIds row)).failed)
            "dependency_failed" db.clock, ?_, .failed waiting state⟩
          apply Alone.session
          apply Alone.bind looked
          apply Alone.bind found
          apply Alone.bind judged
          simp only [state]
          exact .bind (.read _) (.bind (sole_failQueued live idle)
            (.bind .commit (.pure _)))
      | met =>
          obtain ⟨ready, written, kept, all, only⟩ : ∃ ready,
              Sole cfg (writeReady cfg [row]) db (db.dropBlocked [row.id]) ()
                db { db.dropBlocked [row.id] with ready } ∧
              (∀ entry ∈ db.ready.rows, entry ∈ ready.rows) ∧
              (∀ job ∈ [row], db.hasOpenAttempt job.id = false →
                ∃ entry ∈ ready.rows, entry.jobId = job.id) ∧
              ∀ entry ∈ ready.rows, entry ∈ db.ready.rows ∨
                ∃ job ∈ [row], entry.jobId = job.id :=
            sole_writeReady
          have closed : db.hasOpenAttempt row.id = false := by
            simp only [Db.waiting, Bool.and_eq_true, Bool.not_eq_true'] at idle
            exact idle.2
          refine ⟨.ready, _, ?_, .ready waiting state kept
            (all row List.mem_cons_self closed) fun entry member =>
              (only entry member).imp_right (by simp)⟩
          apply Alone.session
          apply Alone.bind looked
          apply Alone.bind found
          apply Alone.bind judged
          simp only [state]
          exact .bind (sole_deleteBlockedStmt _) (.bind written
            (.bind .commit (.pure _)))

theorem settles_recheckBlocked (job : JobId) (createdAt : Time) :
    ∃ outcome last, Settles cfg (recheckBlocked cfg job createdAt) db outcome
        (if outcome = .failed then 1 else 0) last ∧
      Rechecked db job createdAt outcome last := by
  obtain ⟨outcome, last, ran, rechecked⟩ : ∃ outcome last,
      Sole cfg (recheckBlocked cfg job createdAt) db db outcome last last ∧
        Rechecked db job createdAt outcome last := sole_recheckBlocked _ _
  refine ⟨outcome, last, ⟨ran, ?_⟩, rechecked⟩
  cases rechecked with
  | blocked _ _ => exact le_refl _
  | ready _ _ _ _ _ => exact le_refl _
  | gone _ => exact le_refl _
  | failed waiting _ =>
      have found := (Option.filter_eq_some_iff.mp waiting).1
      apply live_fail_length
      rwa [show Job.id _ = job from Table.key_of_get found]

end Recheck

end Sqlery.Standalone
