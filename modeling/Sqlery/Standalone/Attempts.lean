import Sqlery.Standalone.Verified

/-!
# Attempts and rows over whole runs

What the lawfulness of every commit says about every run: a job has at most
one open attempt, a claim that returns a job has opened one, and a job's row is
in one place, which it leaves once.
-/

namespace Sqlery.Standalone

open ReadCommitted

/-! ## Open attempts -/

def openedBy : Write → Option Attempt
  | .insertAttempt attempt => some attempt
  | _ => none

/-- The attempts a list of writes opens. -/
def attemptsOpened (writes : List Write) : List Attempt :=
  writes.filterMap openedBy

theorem attemptsOpened_of_creation {writes : List Write} {attempt : Attempt}
    (made : writes.filter creation = [.insertAttempt attempt]) :
    attemptsOpened writes = [attempt] := by
  have onlyCreations : ∀ write, openedBy write =
      if creation write then openedBy write else none := by
    intro write
    cases write <;> rfl
  calc attemptsOpened writes
      = writes.filterMap fun write =>
          if creation write then openedBy write else none :=
        congrArg (writes.filterMap ·) (funext onlyCreations)
    _ = (writes.filter creation).filterMap openedBy :=
        List.filterMap_filter.symm
    _ = [attempt] := by rw [made]; rfl

/-- A job has at most one open attempt, and a call that has returned a claimed
job has opened one attempt, the job's. -/
theorem open_attempt_unique (cfg : Config) {n : Nat} {state : World n}
    (reached : Reached cfg System.anyStep state) :
    (∀ first ∈ state.db.attempts.rows, ∀ second ∈ state.db.attempts.rows,
      first.isOpen = true → second.isOpen = true →
      first.jobId = second.jobId → first = second) ∧
    ∀ process claimed,
      (state.session process).prog = .done (.ok (.claimed (some claimed))) →
      ∃ attempt, attemptsOpened (state.session process).state.written =
          [attempt] ∧
        attempt.jobId = claimed.job.id ∧ attempt.isOpen = true ∧
        claimed.handle = .ofAttempt attempt := by
  have good := reached.good
  constructor
  · exact good.inv.single
  · intro process claimed returned
    obtain ⟨_, call, isCall, _⟩ := (good.secure process).safe
      (by simp [returned]) (Or.inr (by simp [returned, Prog.isExec]))
    obtain ⟨attempt, ⟨isHandle, isJob, isOpen⟩, here⟩ :=
      good.atReturn isCall returned
    exact ⟨attempt, attemptsOpened_of_creation here.recorded.wrote,
      isJob.symm, isOpen, isHandle⟩

def sqlite : Config := { dialect := .sqlite }

/-- A process creates a job and claims it. -/
def createAndClaim : List (Action Write Call 1) :=
  makes 0 (.createJob {}) 13 ++ makes 0 (.claimJob ["default"] "worker") 12

/-- The handle of the attempt that is opened first. -/
def firstHandle : AttemptHandle :=
  { id := 1, token := "", jobId := 1, claimedAt := some 0,
    workerId := some 0, workerPid := some 0 }

theorem open_attempt_unique_createAndClaim :
    ∃ (state : World 1) (claimed : Claimed) (attempt : Attempt),
      Reached sqlite System.anyStep state ∧
        (state.session 0).prog = .done (.ok (.claimed (some claimed))) ∧
        claimed.job.id = 1 ∧
        attemptsOpened (state.session 0).state.written = [attempt] ∧
        attempt.jobId = claimed.job.id ∧ attempt.isOpen = true := by
  have ran : (ranTo sqlite createAndClaim).isSome = true := rfl
  obtain ⟨attempt, opened, isJob, isOpen, _⟩ :=
    (open_attempt_unique sqlite (reached_ranTo ran)).2 0
      (asRunning { id := 1, createdAt := 0 } firstHandle) rfl
  exact ⟨_, _, attempt, reached_ranTo ran, rfl, rfl, opened, isJob, isOpen⟩

/-! ## Live rows and history -/

section Rows

variable {cfg : Config} {dialect : Dialect} {call : Call} {stage : Stage}
variable {db : Db} {state : Loc}

/-- A row that a lawful transaction deletes is moved: its history row is there
when the live row is gone. -/
theorem moved_of_deleted (inv : Inv db)
    (lawful : Lawful dialect call stage db state) {row : Job}
    (found : db.live.get row.id = some row)
    (deleted : .deleteLive row.id ∈ state.pending) :
    ∃ moved ∈ (after state.pending db).history.rows,
      MovedRow call db row moved := by
  obtain ⟨moved, inserted, isJob⟩ := lawful.deleted row.id deleted
  obtain ⟨_, ⟨live, isLive, isMoved⟩, _⟩ := lawful.moved moved inserted
  rw [isJob, found] at isLive
  cases isLive
  refine ⟨moved, history_after_inserted inserted ?_ ?_, isMoved⟩
  · intro other isOther same
    have absent := inv.apart other isOther
    rw [same, isJob, found] at absent
    cases absent
  · intro other isOther same
    exact lawful.movedOnce other moved isOther inserted same

/-- What becomes of a live row in a transaction of `call`: it stays, perhaps
with other results, it moves with the status and the columns the call gives it,
or a new job of its name replaces it. -/
inductive Fate (call : Option Call) (db next : Db) (row : Job) : Prop where
  | stays (now : Job) : next.live.get row.id = some now → SameJob row now →
      Fate call db next row
  | moves (mover : Call) (moved : Job) : call = some mover →
      next.live.get row.id = none → moved ∈ next.history.rows →
      MovedRow mover db row moved → Fate call db next row
  | replaced (creator : Call) : call = some creator →
      creator.creates = true → next.live.get row.id = none →
      row.id ∈ next.replaced → Fate call db next row

theorem fate_of_lawful (inv : Inv db)
    (lawful : Lawful dialect call stage db state) {row : Job}
    (found : db.live.get row.id = some row) :
    Fate (some call) db (after state.pending db) row := by
  have noInsert :=
    lawful.noInsert (by simp [found] : db.live.get row.id ≠ none)
  by_cases deleted : .deleteLive row.id ∈ state.pending
  · obtain ⟨moved, member, isMoved⟩ :=
      moved_of_deleted inv lawful found deleted
    exact .moves call moved rfl
      (live_after_removed deleted (Or.inl rfl) noInsert) member isMoved
  · by_cases discarded : .discardLive row.id ∈ state.pending
    · exact .replaced call rfl (lawful.discarded row.id discarded).1
        (live_after_removed discarded (Or.inr rfl) noInsert)
        (replaced_after_mem.mpr (Or.inr discarded))
    · have kept : ∀ write ∈ state.pending, ¬removes row.id write := by
        intro write member isRemoval
        rcases isRemoval with rfl | rfl
        · exact deleted member
        · exact discarded member
      obtain ⟨now, isNow, rfl | updated⟩ := live_after_some found kept
      · exact .stays now isNow ⟨rfl, rfl, rfl⟩
      · obtain ⟨⟨live, isLive, same⟩, _⟩ := lawful.updated now updated
        have keyed : now.id = row.id := Table.key_of_get isNow
        rw [keyed, found] at isLive
        cases isLive
        exact .stays now isNow same

/-- A history row is the move of a live row. -/
theorem history_of_lawful (lawful : Lawful dialect call stage db state)
    {row : Job} (member : row ∈ (after state.pending db).history.rows) :
    row ∈ db.history.rows ∨
      ∃ live ∈ db.live.rows, MovedRow call db live row := by
  rcases history_after_cases member with old | new
  · exact Or.inl old
  · obtain ⟨_, ⟨live, found, isMoved⟩, _⟩ := lawful.moved row new
    exact Or.inr ⟨live, Table.mem_of_get found, isMoved⟩

end Rows

/-- A job is live or in history, never both, and in history once.  A step
leaves its live row where it is or moves it into history, where the row has the
status and the columns that the call gives a finished job and keeps its others,
and history rows stay as they are. -/
theorem rows_partitioned (cfg : Config) {n : Nat} {state : World n}
    (reached : Reached cfg System.anyStep state) :
    (∀ row ∈ state.db.history.rows, state.db.live.get row.id = none) ∧
    (∀ first ∈ state.db.history.rows, ∀ second ∈ state.db.history.rows,
      first.id = second.id → first = second) ∧
    ∀ action next, (system cfg).act state action = some next →
      (∀ row ∈ state.db.live.rows, Fate
        ((System.committing state action).map Prod.snd) state.db next.db
          row) ∧
      (∀ row ∈ state.db.history.rows, row ∈ next.db.history.rows) ∧
      ∀ row ∈ next.db.history.rows, row ∈ state.db.history.rows ∨
        ∃ mover, (System.committing state action).map Prod.snd = some mover ∧
          ∃ live ∈ state.db.live.rows,
            MovedRow mover state.db live row := by
  have good := reached.good
  refine ⟨good.inv.apart, good.inv.once, ?_⟩
  intro action next taken
  rcases good.act_cases taken with ⟨process, call, commits⟩ | quiet
  · obtain ⟨stage, _, lawful⟩ := commits.promised
    have isAfter : next.db = after _ state.db := commits.db
    rw [isAfter, commits.committing]
    refine ⟨?_, fun row member => history_after_kept member, ?_⟩
    · intro row member
      exact fate_of_lawful good.inv lawful (Table.get_of_mem member)
    · intro row member
      exact (history_of_lawful lawful member).imp id
        fun moved => ⟨call, rfl, moved⟩
  · have same := sameTables_of_drifts quiet.db
    rw [same.history]
    refine ⟨?_, fun row member => member, fun row member => Or.inl member⟩
    intro row member
    refine .stays row ?_ ⟨rfl, rfl, rfl⟩
    rw [same.live]
    exact Table.get_of_mem member

/-- The claimed job succeeds; the completion is about to commit. -/
def completing : List (Action Write Call 1) :=
  createAndClaim ++
    makes 0 (.markJobSuccess 1 "done" none (some firstHandle)) 18

theorem rows_partitioned_completing :
    ∃ state next : World 1, Reached sqlite System.anyStep state ∧
      (system sqlite).act state (.step 0) = some next ∧
      state.db.live.rows.map (·.id) = [1] ∧ next.db.live.rows = [] ∧
      next.db.history.rows.map (fun row => (row.id, row.status)) =
        [(1, .success)] ∧
      ∀ row ∈ state.db.live.rows,
        Fate ((System.committing state (.step 0)).map Prod.snd) state.db
          next.db row := by
  have ran : (ranTo sqlite completing).isSome = true := rfl
  have taken : ((system sqlite).act ((ranTo sqlite completing).get ran)
      (.step 0)).isSome = true := rfl
  have partitioned := rows_partitioned sqlite (reached_ranTo ran)
  exact ⟨_, _, reached_ranTo ran, (Option.some_get taken).symm, rfl, rfl, rfl,
    (partitioned.2.2 _ _ (Option.some_get taken).symm).1⟩

end Sqlery.Standalone
