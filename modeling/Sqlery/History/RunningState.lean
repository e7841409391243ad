import Mathlib.Data.List.MinMax
import Sqlery.History.Rows

/-!
# Running, derived from the attempts

The migration that takes the running state out of the status column: the rows
stored as running become queued rows with an open attempt
(`normalize_running_sql`), the view over live table and history shows a queued
row with an open attempt as running (`view_sql` with attempts), and the reverse
migration writes the running rows back (`denormalize_running_sql`).
-/

namespace Sqlery.History

open ReadCommitted

variable {Rest : Type}

/-! ## The statements -/

/-- A row of a `LEFT JOIN`: without partner it appears once, alone. -/
def joined {A B : Type} (others : List B) (on : A → B → Bool) (row : A) :
    List (A × Option B) :=
  match others.filter (on row) with
  | [] => [(row, none)]
  | partners => partners.map fun partner => (row, some partner)

def leftJoin {A B : Type} (rows : List A) (others : List B)
    (on : A → B → Bool) : List (A × Option B) :=
  rows.flatMap (joined others on)

/-- The plain union of the live table and history. -/
def viewSql (db : Db Rest) : List (Row Rest) :=
  db.live.rows ++ db.history

/-- The row as the view shows it: `_RUNNING_FROM_ATTEMPT` replaces the columns
of a joined row. -/
def runningFromAttempt (row : Row Rest) (attempt : Option Attempt) :
    Row Rest :=
  { row with toJob := overlayRunning row.toJob attempt }

def viewSqlWithAttempts (db : Db Rest) : List (Row Rest) :=
  (leftJoin db.live.rows db.attempts fun row attempt =>
      attempt.runs row.id && row.status = .queued).map
    (fun pair => runningFromAttempt pair.1 pair.2) ++ db.history

def openAttempts (db : Db Rest) (job : JobId) : List Attempt :=
  db.attempts.filter fun attempt => attempt.runs job

/-- The attempt built from the columns that the older claim wrote. -/
def attemptOf (token : AttemptId → String) (id : AttemptId) (row : Row Rest) :
    Attempt where
  id := id
  jobId := row.id
  token := token id
  workerId := row.workerId
  workerPid := row.workerPid
  childPid := row.childPid
  claimedAt := row.startedAt.getD row.createdAt

def attemptsOf (token : AttemptId → String) :
    AttemptId → List (Row Rest) → List Attempt
  | _, [] => []
  | id, row :: rows =>
      attemptOf token id row :: attemptsOf token (id + 1) rows

def lacksAttempt (db : Db Rest) (row : Row Rest) : Bool :=
  row.status = .running && !(db.attempts.any fun attempt => attempt.runs row.id)

/-- `INSERT .. SELECT` of `normalize_running_sql`. -/
def insertMissing (token : AttemptId → String) (db : Db Rest) : Db Rest :=
  let rows := db.live.rows.filter (lacksAttempt db)
  { db with
    attempts := db.attempts ++ attemptsOf token db.nextAttempt rows
    nextAttempt := db.nextAttempt + rows.length }

def queueRunning (row : Row Rest) : Row Rest :=
  if row.status = .running then { row with status := .queued } else row

@[simp] theorem id_queueRunning (row : Row Rest) :
    (queueRunning row).id = row.id := by
  simp only [queueRunning]
  split <;> rfl

/-- `UPDATE` of `normalize_running_sql`. -/
def markQueued (db : Db Rest) : Db Rest :=
  { db with live := revise db.live queueRunning id_queueRunning }

def normalizeRunningSql (token : AttemptId → String) (db : Db Rest) :
    Db Rest :=
  markQueued (insertMissing token db)

/-- `ORDER BY a.id DESC LIMIT 1` over the open attempts of a job. -/
def newest (db : Db Rest) (job : JobId) : Option Attempt :=
  (openAttempts db job).argmax fun attempt => attempt.id

/-- A scalar subquery without row is NULL. -/
def writeRunning (db : Db Rest) (row : Row Rest) : Row Rest :=
  if row.status = .queued &&
      db.attempts.any (fun attempt => attempt.runs row.id) then
    { row with
      status := .running
      startedAt := (newest db row.id).map Attempt.claimedAt
      workerId := (newest db row.id).bind Attempt.workerId
      workerPid := (newest db row.id).bind Attempt.workerPid
      childPid := (newest db row.id).bind Attempt.childPid }
  else row

@[simp] theorem id_writeRunning (db : Db Rest) (row : Row Rest) :
    (writeRunning db row).id = row.id := by
  simp only [writeRunning]
  split <;> rfl

def denormalizeRunningSql (db : Db Rest) : Db Rest :=
  { db with live := revise db.live (writeRunning db) (id_writeRunning db) }

/-! ## The state before the migration -/

/-- What the older claim left of a running row. -/
inductive Claimed (db : Db Rest) (row : Row Rest) : Prop where
  | attempted (attempt : Attempt) (only : openAttempts db row.id = [attempt])
      (started : row.startedAt = some attempt.claimedAt)
      (worker : row.workerId = attempt.workerId)
      (workerPid : row.workerPid = attempt.workerPid)
      (childPid : row.childPid = attempt.childPid)
  | unattempted (none_ : openAttempts db row.id = [])
      (started : row.startedAt ≠ none)

structure PreMigration (db : Db Rest) : Prop where
  queued : ∀ row ∈ db.live.rows, row.status = .queued →
    openAttempts db row.id = []
  running : ∀ row ∈ db.live.rows, row.status = .running → Claimed db row

/-! ## One row through the migration -/

theorem any_runs (db : Db Rest) (job : JobId) :
    (db.attempts.any fun attempt => attempt.runs job) =
      !(openAttempts db job).isEmpty := by
  simp only [openAttempts]
  induction db.attempts with
  | nil => rfl
  | cons attempt attempts induction =>
      cases runs : attempt.runs job
      · simp [runs, induction]
      · simp [runs]

theorem lacksAttempt_iff {db : Db Rest} {row : Row Rest} :
    lacksAttempt db row = true ↔
      row.status = .running ∧ openAttempts db row.id = [] := by
  simp only [lacksAttempt, any_runs]
  simp

theorem runs_attemptOf (token : AttemptId → String) (id : AttemptId)
    (row : Row Rest) (job : JobId) :
    (attemptOf token id row).runs job = true ↔ row.id = job := by
  have parts : (attemptOf token id row).runs job = true ↔
      (attemptOf token id row).jobId = job ∧
        (attemptOf token id row).isOpen = true := by
    simp [Attempt.runs]
  rw [parts]
  simp [attemptOf, Attempt.isOpen]

/-- Only a row of the job gives an attempt of the job. -/
theorem filter_attemptsOf_absent (token : AttemptId → String) {job : JobId}
    {rows : List (Row Rest)} (absent : ∀ row ∈ rows, row.id ≠ job) :
    ∀ id, (attemptsOf token id rows).filter (·.runs job) = [] := by
  induction rows with
  | nil => intro id; rfl
  | cons row rows induction =>
      intro id
      have other : row.id ≠ job := absent row List.mem_cons_self
      have rest := induction (fun row member =>
        absent row (List.mem_cons_of_mem _ member)) (id + 1)
      simp [attemptsOf, runs_attemptOf, other, rest]

/-- A row of the list gives its job one attempt. -/
theorem filter_attemptsOf_present (token : AttemptId → String)
    {rows : List (Row Rest)} {row : Row Rest}
    (distinct : (rows.map fun row => row.id).Nodup) (member : row ∈ rows) :
    ∀ id, ∃ given,
      (attemptsOf token id rows).filter (·.runs row.id) =
        [attemptOf token given row] := by
  induction rows with
  | nil => cases member
  | cons head rows induction =>
      intro id
      rw [List.map_cons, List.nodup_cons] at distinct
      rcases List.mem_cons.mp member with rfl | later
      · have absent : ∀ other ∈ rows, other.id ≠ row.id := by
          intro other isOther same
          exact distinct.1 (same ▸ List.mem_map_of_mem isOther)
        have rest := filter_attemptsOf_absent token absent (id + 1)
        exact ⟨id, by simp [attemptsOf, runs_attemptOf, rest]⟩
      · have other : head.id ≠ row.id := by
          intro same
          exact distinct.1 (same ▸ List.mem_map_of_mem later)
        obtain ⟨given, rest⟩ := induction distinct.2 later (id + 1)
        exact ⟨given, by simp [attemptsOf, runs_attemptOf, other, rest]⟩

theorem openAttempts_insertMissing (token : AttemptId → String)
    (db : Db Rest) (job : JobId) :
    openAttempts (insertMissing token db) job =
      openAttempts db job ++
        (attemptsOf token db.nextAttempt
          (db.live.rows.filter (lacksAttempt db))).filter (·.runs job) := by
  simp [openAttempts, insertMissing, List.filter_append]

/-- A row that has an attempt, or does not run, gets none. -/
theorem openAttempts_kept (token : AttemptId → String) {db : Db Rest}
    {row : Row Rest} (member : row ∈ db.live.rows)
    (has : lacksAttempt db row = false) :
    openAttempts (insertMissing token db) row.id = openAttempts db row.id := by
  have absent : ∀ other ∈ db.live.rows.filter (lacksAttempt db),
      other.id ≠ row.id := by
    intro other isOther same
    obtain ⟨isLive, lacks⟩ := List.mem_filter.mp isOther
    have isRow := eq_of_key isLive member same
    rw [isRow, has] at lacks
    cases lacks
  rw [openAttempts_insertMissing, filter_attemptsOf_absent token absent,
    List.append_nil]

theorem openAttempts_given (token : AttemptId → String) {db : Db Rest}
    {row : Row Rest} (member : row ∈ db.live.rows)
    (lacks : lacksAttempt db row = true) :
    ∃ given, openAttempts (insertMissing token db) row.id =
      [attemptOf token given row] := by
  have distinct : ((db.live.rows.filter (lacksAttempt db)).map
      fun row => row.id).Nodup :=
    db.live.nodup.sublist (List.filter_sublist.map _)
  have selected : row ∈ db.live.rows.filter (lacksAttempt db) :=
    List.mem_filter.mpr ⟨member, lacks⟩
  obtain ⟨given, filtered⟩ :=
    filter_attemptsOf_present token distinct selected db.nextAttempt
  refine ⟨given, ?_⟩
  rw [openAttempts_insertMissing, (lacksAttempt_iff.mp lacks).2, filtered,
    List.nil_append]

/-- The attempt and the columns of a running row agree. -/
structure Shows (row : Row Rest) (attempt : Attempt) : Prop where
  started : row.startedAt = some attempt.claimedAt
  worker : row.workerId = attempt.workerId
  workerPid : row.workerPid = attempt.workerPid
  childPid : row.childPid = attempt.childPid

/-- After the insert every running row has one open attempt, which shows what
the row says. -/
theorem running_attempted (token : AttemptId → String) {db : Db Rest}
    (before : PreMigration db) {row : Row Rest} (member : row ∈ db.live.rows)
    (running : row.status = .running) :
    ∃ attempt, openAttempts (insertMissing token db) row.id = [attempt] ∧
      Shows row attempt := by
  cases before.running row member running with
  | attempted attempt only started worker workerPid childPid =>
      have has : lacksAttempt db row = false := by
        rw [← Bool.not_eq_true, lacksAttempt_iff, only]
        simp
      rw [openAttempts_kept token member has]
      exact ⟨attempt, only, ⟨started, worker, workerPid, childPid⟩⟩
  | unattempted none_ started =>
      have lacks := lacksAttempt_iff.mpr ⟨running, none_⟩
      obtain ⟨given, only⟩ := openAttempts_given token member lacks
      refine ⟨attemptOf token given row, only, ?_, rfl, rfl, rfl⟩
      obtain ⟨time, atTime⟩ := Option.ne_none_iff_exists'.mp started
      simp [attemptOf, atTime]

/-- A row that does not run is as before the migration. -/
theorem waiting_kept (token : AttemptId → String) {db : Db Rest}
    {row : Row Rest} (member : row ∈ db.live.rows)
    (idle : row.status ≠ .running) :
    queueRunning row = row ∧
      openAttempts (insertMissing token db) row.id =
        openAttempts db row.id := by
  have has : lacksAttempt db row = false := by
    rw [← Bool.not_eq_true, lacksAttempt_iff]
    simp [idle]
  constructor
  · simp [queueRunning, idle]
  · exact openAttempts_kept token member has

/-! ## The view -/

/-- The rows the view shows for one live row. -/
def shown (db : Db Rest) (row : Row Rest) : List (Row Rest) :=
  (joined db.attempts (fun row attempt =>
      attempt.runs row.id && row.status = .queued) row).map
    fun pair => runningFromAttempt pair.1 pair.2

theorem viewSqlWithAttempts_eq (db : Db Rest) :
    viewSqlWithAttempts db = db.live.rows.flatMap (shown db) ++ db.history := by
  simp only [viewSqlWithAttempts, leftJoin, List.map_flatMap]
  rfl

theorem shown_of_not_queued {db : Db Rest} {row : Row Rest}
    (other : row.status ≠ .queued) : shown db row = [row] := by
  simp [shown, joined, other, runningFromAttempt, overlayRunning]

theorem shown_of_queued {db : Db Rest} {row : Row Rest}
    (queued : row.status = .queued) :
    shown db row =
      match openAttempts db row.id with
      | [] => [row]
      | attempts => attempts.map fun attempt =>
          runningFromAttempt row (some attempt) := by
  have partners : (db.attempts.filter fun attempt =>
      attempt.runs row.id && row.status = .queued) =
        openAttempts db row.id := by
    simp [openAttempts, queued]
  simp only [shown, joined, partners]
  cases openAttempts db row.id with
  | nil => rfl
  | cons attempt attempts => simp

/-- The status the view shows is the derived one. -/
theorem status_shown {db : Db Rest} {row seen : Row Rest}
    (member : seen ∈ shown db row) :
    seen.status = derivedStatus row.status
      (db.attempts.any fun attempt => attempt.runs row.id) := by
  by_cases queued : row.status = .queued
  · rw [shown_of_queued queued] at member
    rw [any_runs]
    cases attempts : openAttempts db row.id with
    | nil =>
        have isRow : seen = row := by simpa [attempts] using member
        simp [derivedStatus, isRow]
    | cons attempt rest =>
        rw [attempts] at member
        obtain ⟨chosen, _, rfl⟩ := List.mem_map.mp member
        simp [derivedStatus, queued, runningFromAttempt, overlayRunning]
  · rw [shown_of_not_queued queued] at member
    have isRow : seen = row := by simpa using member
    simp [derivedStatus, isRow, queued]

/-- The columns of a running row are those of an attempt that shows it. -/
theorem runningFromAttempt_queueRunning {row : Row Rest} {attempt : Attempt}
    (running : row.status = .running) (shows_ : Shows row attempt) :
    runningFromAttempt (queueRunning row) (some attempt) = row := by
  obtain ⟨job, rest⟩ := row
  obtain ⟨started, worker, workerPid, childPid⟩ := shows_
  cases job
  simp_all [runningFromAttempt, overlayRunning, queueRunning]

theorem shown_normalized (token : AttemptId → String) {db : Db Rest}
    (before : PreMigration db) {row : Row Rest}
    (member : row ∈ db.live.rows) :
    shown (normalizeRunningSql token db) (queueRunning row) = [row] := by
  have sameAttempts : ∀ job, openAttempts (normalizeRunningSql token db) job =
      openAttempts (insertMissing token db) job := fun _ => rfl
  by_cases running : row.status = .running
  · obtain ⟨attempt, only, shows_⟩ :=
      running_attempted token before member running
    have queued : (queueRunning row).status = .queued := by
      simp [queueRunning, running]
    rw [shown_of_queued queued, sameAttempts, id_queueRunning, only]
    simp [runningFromAttempt_queueRunning running shows_]
  · obtain ⟨same, kept⟩ := waiting_kept token member running
    rw [same]
    by_cases queued : row.status = .queued
    · rw [shown_of_queued queued, sameAttempts, kept,
        before.queued row member queued]
    · exact shown_of_not_queued queued

theorem view_normalized (token : AttemptId → String) {db : Db Rest}
    (before : PreMigration db) :
    viewSqlWithAttempts (normalizeRunningSql token db) = viewSql db := by
  rw [viewSqlWithAttempts_eq]
  have rows : (normalizeRunningSql token db).live.rows =
      db.live.rows.map queueRunning := rfl
  have history : (normalizeRunningSql token db).history = db.history := rfl
  have each : db.live.rows.flatMap (fun row =>
      shown (normalizeRunningSql token db) (queueRunning row)) =
        db.live.rows := by
    have alone := List.flatMap_congr fun (row : Row Rest) member =>
      shown_normalized token before (member : row ∈ db.live.rows)
    rw [alone, List.flatMap_singleton']
  rw [rows, history, List.flatMap_map, each]
  rfl

/-! ## Once more, and back -/

theorem queueRunning_idle {row : Row Rest} (idle : row.status ≠ .running) :
    queueRunning row = row := by
  simp [queueRunning, idle]

/-- Without running rows there is nothing to do. -/
theorem normalizeRunningSql_of_idle (token : AttemptId → String)
    {db : Db Rest} (idle : ∀ row ∈ db.live.rows, row.status ≠ .running) :
    normalizeRunningSql token db = db := by
  have noneLacks : db.live.rows.filter (lacksAttempt db) = [] := by
    rw [List.filter_eq_nil_iff]
    intro row member lacks
    exact idle row member (lacksAttempt_iff.mp lacks).1
  have inserted : insertMissing token db = db := by
    simp [insertMissing, noneLacks, attemptsOf]
  have sameRows : db.live.rows.map queueRunning = db.live.rows := by
    have each := List.map_congr_left fun row member =>
      queueRunning_idle (idle row member)
    rw [each, List.map_id']
  have sameLive : revise db.live queueRunning id_queueRunning = db.live :=
    table_ext sameRows
  simp [normalizeRunningSql, inserted, markQueued, sameLive]

theorem idle_normalized (token : AttemptId → String) (db : Db Rest) :
    ∀ row ∈ (normalizeRunningSql token db).live.rows,
      row.status ≠ .running := by
  intro row member
  have mapped : row ∈ db.live.rows.map queueRunning := member
  obtain ⟨old, _, rfl⟩ := List.mem_map.mp mapped
  by_cases running : old.status = .running
  · simp [queueRunning, running]
  · rwa [queueRunning_idle running]

theorem normalizeRunningSql_idempotent (first second : AttemptId → String)
    (db : Db Rest) :
    normalizeRunningSql second (normalizeRunningSql first db) =
      normalizeRunningSql first db :=
  normalizeRunningSql_of_idle second (idle_normalized first db)

theorem writeRunning_normalized (token : AttemptId → String) {db : Db Rest}
    (before : PreMigration db) {row : Row Rest}
    (member : row ∈ db.live.rows) :
    writeRunning (normalizeRunningSql token db) (queueRunning row) = row := by
  have sameAttempts : ∀ job, openAttempts (normalizeRunningSql token db) job =
      openAttempts (insertMissing token db) job := fun _ => rfl
  by_cases running : row.status = .running
  · obtain ⟨attempt, only, shows_⟩ :=
      running_attempted token before member running
    have queued : (queueRunning row).status = .queued := by
      simp [queueRunning, running]
    have isNewest : newest (normalizeRunningSql token db) row.id =
        some attempt := by
      simp [newest, sameAttempts, only]
    have written : writeRunning (normalizeRunningSql token db)
        (queueRunning row) =
          runningFromAttempt (queueRunning row) (some attempt) := by
      simp only [writeRunning, any_runs, sameAttempts, id_queueRunning, only,
        queued, isNewest]
      simp [runningFromAttempt, overlayRunning]
    rw [written, runningFromAttempt_queueRunning running shows_]
  · obtain ⟨same, kept⟩ := waiting_kept token member running
    rw [same]
    by_cases queued : row.status = .queued
    · have alone := before.queued row member queued
      simp [writeRunning, any_runs, sameAttempts, kept, alone]
    · simp [writeRunning, queued]

theorem live_denormalized (token : AttemptId → String) {db : Db Rest}
    (before : PreMigration db) :
    (denormalizeRunningSql (normalizeRunningSql token db)).live = db.live := by
  apply table_ext
  have rows : (denormalizeRunningSql (normalizeRunningSql token db)).live.rows =
      (db.live.rows.map queueRunning).map
        (writeRunning (normalizeRunningSql token db)) := rfl
  have each := List.map_congr_left fun (row : Row Rest) member =>
    writeRunning_normalized token before (member : row ∈ db.live.rows)
  rw [rows, List.map_map]
  exact each.trans (List.map_id' _)

/-! ## The migration preserves what readers see -/

/-- Running is derived: no row is stored as running, what ran has one open
attempt with its columns, and the view shows the derived status. -/
structure Derived (before after : Db Rest) : Prop where
  stored : ∀ row ∈ after.live.rows, row.status ≠ .running
  attempted : ∀ row ∈ before.live.rows, row.status = .running →
    ∃ attempt, openAttempts after row.id = [attempt] ∧ Shows row attempt
  shown : ∀ row ∈ after.live.rows, ∀ seen ∈ shown after row,
    seen.status = derivedStatus row.status
      (after.attempts.any fun attempt => attempt.runs row.id)

theorem derived_normalized (token : AttemptId → String) {db : Db Rest}
    (before : PreMigration db) : Derived db (normalizeRunningSql token db) := by
  constructor
  case stored => exact idle_normalized token db
  case attempted =>
    intro row member running
    exact running_attempted token before member running
  case shown =>
    intro row _ seen member
    exact status_shown member

/-- Readers of the view see the rows they saw before, a second run changes
nothing, the reverse migration restores the live rows, and meanwhile running is
derived from the attempts.  Each run draws its own tokens. -/
theorem running_derived (first second : AttemptId → String) (db : Db Rest)
    (before : PreMigration db) :
    viewSqlWithAttempts (normalizeRunningSql first db) = viewSql db ∧
      normalizeRunningSql second (normalizeRunningSql first db) =
        normalizeRunningSql first db ∧
      (denormalizeRunningSql (normalizeRunningSql first db)).live = db.live ∧
      Derived db (normalizeRunningSql first db) := by
  constructor
  · exact view_normalized first before
  constructor
  · exact normalizeRunningSql_idempotent first second db
  constructor
  · exact live_denormalized first before
  · exact derived_normalized first before

def claimedByThree : Attempt where
  id := 1
  jobId := 1
  token := "b"
  workerId := some 3
  workerPid := some 30
  claimedAt := 12

/-- A running job with its attempt and a closed one, a running job of before
the attempts, a waiting job and one that failed with an open attempt. -/
def midUpgrade : Db Unit where
  live := {
    rows := [
      { id := 1, createdAt := 10, status := .running, startedAt := some 12,
        workerId := some 3, workerPid := some 30, rest := () },
      { id := 2, createdAt := 11, status := .running, startedAt := some 13,
        workerId := some 4, rest := () },
      { id := 3, createdAt := 12, rest := () },
      { id := 4, createdAt := 13, status := .failed, rest := () }]
    nodup := by decide }
  history := [
    { id := 5, createdAt := 1, status := .success, finishedAt := some 2,
      rest := () }]
  attempts := [
    { id := 0, jobId := 1, token := "a", claimedAt := 11,
      finishedAt := some 12 },
    claimedByThree,
    { id := 2, jobId := 4, token := "c", claimedAt := 14 }]
  nextAttempt := 3

theorem preMigration_midUpgrade : PreMigration midUpgrade := by
  constructor
  · decide
  · intro row member running
    simp only [midUpgrade, List.mem_cons, List.not_mem_nil, or_false] at member
    rcases member with rfl | rfl | rfl | rfl
    · have only : openAttempts midUpgrade 1 = [claimedByThree] := rfl
      exact .attempted claimedByThree only rfl rfl rfl rfl
    · exact .unattempted rfl nofun
    · cases running
    · cases running

theorem running_derived_midUpgrade :
    viewSqlWithAttempts (normalizeRunningSql (fun _ => "new") midUpgrade) =
        viewSql midUpgrade ∧
      normalizeRunningSql (fun _ => "other")
          (normalizeRunningSql (fun _ => "new") midUpgrade) =
        normalizeRunningSql (fun _ => "new") midUpgrade ∧
      (denormalizeRunningSql
          (normalizeRunningSql (fun _ => "new") midUpgrade)).live =
        midUpgrade.live ∧
      Derived midUpgrade (normalizeRunningSql (fun _ => "new") midUpgrade) :=
  running_derived (fun _ => "new") (fun _ => "other") midUpgrade
    preMigration_midUpgrade

end Sqlery.History
