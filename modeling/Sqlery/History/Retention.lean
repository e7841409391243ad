import Mathlib.Data.Prod.Lex
import Sqlery.Core.Job
import Sqlery.ReadCommitted.Ranked
import Sqlery.ReadCommitted.Table

/-!
# Retention by count

`cleanup_jobs_by_count` keeps the newest finished jobs of a status and a queue
and deletes the others from history, a batch of them at a time.  The offset of
a batch stays where it is while the table under it gets shorter.
-/

namespace Sqlery.History

open ReadCommitted

variable {Rest : Type}

/-- A row of history, with the columns that retention reads. -/
structure JobHistory (Rest : Type) where
  id : JobId
  finishedAt : Time
  status : String
  queueName : String
  rest : Rest
  deriving DecidableEq, Repr

structure RetentionDb (Rest : Type) where
  history : Table (fun row : JobHistory Rest => row.id)
  attempts : List Attempt := []

structure Cleaned where
  deleted : Nat
  count : Nat
  kept : Nat
  deriving DecidableEq, Repr

/-! ## The statements -/

/-- A filter that is absent or empty admits every value. -/
def admits (filter : Option String) (value : String) : Bool :=
  match filter with
  | none => true
  | some wanted => wanted = "" || value = wanted

def filters (status queueName : Option String) (row : JobHistory Rest) :
    Bool :=
  admits status row.status && admits queueName row.queueName

/-- `ORDER BY finished_at DESC, id DESC`. -/
def recency (row : JobHistory Rest) : Time ×ₗ JobId :=
  toLex (row.finishedAt, row.id)

def selected (status queueName : Option String) (db : RetentionDb Rest) :
    List (JobHistory Rest) :=
  descending recency (db.history.rows.filter (filters status queueName))

def older (status queueName : Option String) (keepCount batchSize : Nat)
    (db : RetentionDb Rest) : List JobId :=
  (((selected status queueName db).drop keepCount).take batchSize).map
    fun row => row.id

/-- `_delete_history_batch`, with the row count of the first statement. -/
def deleteHistoryBatch (ids : List JobId) (db : RetentionDb Rest) :
    RetentionDb Rest × Nat :=
  ({ history := db.history.retain fun row => row.id ∉ ids
     attempts := db.attempts.filter fun attempt =>
      !(decide (attempt.jobId ∈ ids) && attempt.finishedAt.isSome) },
    (db.history.rows.filter fun row => row.id ∈ ids).length)

theorem deleteHistoryBatch_length (ids : List JobId) (db : RetentionDb Rest) :
    (deleteHistoryBatch ids db).1.history.rows.length +
        (deleteHistoryBatch ids db).2 = db.history.rows.length := by
  have parts := List.length_eq_length_filter_add (l := db.history.rows)
    fun row => decide (row.id ∈ ids)
  simp only [deleteHistoryBatch, Table.retain, decide_not]
  omega

theorem deleteHistoryBatch_shorter {ids : List JobId} {db : RetentionDb Rest}
    (counted : ¬(deleteHistoryBatch ids db).2 = 0) :
    (deleteHistoryBatch ids db).1.history.rows.length <
      db.history.rows.length := by
  have length := deleteHistoryBatch_length ids db
  omega

/-- The loop of `cleanup_jobs_by_count`, after `deleted` rows.  A batch that
deletes something leaves a shorter table to the rest of the loop. -/
def deleteOlder (status queueName : Option String)
    (keepCount batchSize : Nat) (db : RetentionDb Rest) (deleted : Nat) :
    RetentionDb Rest × Nat :=
  let ids := older status queueName keepCount batchSize db
  if ids = [] then (db, deleted)
  else
    let batch := deleteHistoryBatch ids db
    if batch.2 = 0 then (batch.1, deleted)
    else
      deleteOlder status queueName keepCount batchSize batch.1
        (deleted + batch.2)
termination_by db.history.rows.length
decreasing_by exact deleteHistoryBatch_shorter ‹_›

def cleanupJobsByCount (status : Option String) (keepCount : Nat)
    (queueName : Option String) (dryRun : Bool) (batchSize : Nat)
    (db : RetentionDb Rest) : RetentionDb Rest × Cleaned :=
  let total := (db.history.rows.filter (filters status queueName)).length
  let kept := min total keepCount
  if dryRun then (db, { deleted := 0, count := total - keepCount, kept })
  else
    let after := deleteOlder status queueName keepCount batchSize db 0
    (after.1, { deleted := after.2, count := after.2, kept })

/-! ## One batch -/

variable {status queueName : Option String} {keepCount batchSize : Nat}

@[simp] theorem deleteHistoryBatch_nil (db : RetentionDb Rest) :
    (deleteHistoryBatch [] db).1 = db := by
  simp [deleteHistoryBatch, Table.retain]

theorem deleteHistoryBatch_append (first second : List JobId)
    (db : RetentionDb Rest) :
    (deleteHistoryBatch second (deleteHistoryBatch first db).1).1 =
      (deleteHistoryBatch (first ++ second) db).1 := by
  have rows : (db.history.rows.filter fun row => row.id ∉ first).filter
      (fun row => row.id ∉ second) =
        db.history.rows.filter fun row => row.id ∉ first ++ second := by
    rw [List.filter_filter]
    apply List.filter_congr
    intro row _
    simp [Bool.and_comm]
  have attempts : (db.attempts.filter fun attempt =>
      !(decide (attempt.jobId ∈ first) && attempt.finishedAt.isSome)).filter
        (fun attempt =>
          !(decide (attempt.jobId ∈ second) && attempt.finishedAt.isSome)) =
      db.attempts.filter fun attempt =>
        !(decide (attempt.jobId ∈ first ++ second) &&
          attempt.finishedAt.isSome) := by
    rw [List.filter_filter]
    apply List.filter_congr
    intro attempt _
    cases attempt.finishedAt <;> simp [Bool.and_comm]
  simp only [deleteHistoryBatch, Table.retain, rows, attempts]

/-- Each id of a row is the id of one row. -/
theorem deleteHistoryBatch_count {rows : List (JobHistory Rest)}
    {db : RetentionDb Rest} (distinct : rows.Nodup)
    (among : ∀ row ∈ rows, row ∈ db.history.rows) :
    (deleteHistoryBatch (rows.map fun row => row.id) db).2 = rows.length := by
  have once : db.history.rows.Nodup := db.history.nodup.of_map
  have same : (db.history.rows.filter fun row =>
      row.id ∈ rows.map fun row => row.id).Perm rows := by
    apply (List.perm_ext_iff_of_nodup (once.filter _) distinct).mpr
    intro row
    rw [List.mem_filter, decide_eq_true_iff]
    constructor
    · intro both
      obtain ⟨other, isOther, equal⟩ := List.mem_map.mp both.2
      have equal := List.inj_on_of_nodup_map db.history.nodup
        (among other isOther) both.1 equal
      rwa [← equal]
    · intro member
      exact ⟨among row member, List.mem_map_of_mem member⟩
  exact same.length_eq

theorem distinct_recency (db : RetentionDb Rest)
    (keep : JobHistory Rest → Bool) :
    ((db.history.rows.filter keep).map recency).Nodup := by
  have ids : ((db.history.rows.filter keep).map fun row => row.id).Nodup :=
    db.history.nodup.sublist (List.filter_sublist.map _)
  apply List.Nodup.of_map fun rank => (ofLex rank).2
  rw [List.map_map]
  exact ids

theorem mem_selected {db : RetentionDb Rest} {row : JobHistory Rest} :
    row ∈ selected status queueName db ↔
      row ∈ db.history.rows ∧ filters status queueName row = true := by
  simp [selected]

theorem nodup_ids_selected (status queueName : Option String)
    (db : RetentionDb Rest) :
    ((selected status queueName db).map fun row => row.id).Nodup := by
  have ids : ((db.history.rows.filter (filters status queueName)).map
      fun row => row.id).Nodup :=
    db.history.nodup.sublist (List.filter_sublist.map _)
  exact ((perm_descending recency _).map _).nodup_iff.mpr ids

theorem selected_delete (ids : List JobId) (db : RetentionDb Rest) :
    selected status queueName (deleteHistoryBatch ids db).1 =
      (selected status queueName db).filter fun row => row.id ∉ ids := by
  have rows : (db.history.rows.filter fun row => row.id ∉ ids).filter
      (filters status queueName) =
        (db.history.rows.filter (filters status queueName)).filter
          fun row => row.id ∉ ids := by
    rw [List.filter_filter, List.filter_filter]
    apply List.filter_congr
    intro row _
    exact Bool.and_comm _ _
  simp only [selected, deleteHistoryBatch, Table.retain, rows]
  exact descending_filter (distinct_recency db _) _

/-- A batch leaves the newest rows in their places, and what is past the batch
moves up to them. -/
theorem drop_selected_delete (db : RetentionDb Rest) :
    (selected status queueName (deleteHistoryBatch
        (older status queueName keepCount batchSize db) db).1).drop keepCount =
      ((selected status queueName db).drop keepCount).drop batchSize := by
  rw [selected_delete, older]
  generalize isSorted : selected status queueName db = sorted
  have distinct : (sorted.map fun row => row.id).Nodup := by
    rw [← isSorted]
    exact nodup_ids_selected status queueName db
  have parts : sorted = sorted.take keepCount ++
      ((sorted.drop keepCount).take batchSize ++
        (sorted.drop keepCount).drop batchSize) := by
    rw [List.take_append_drop, List.take_append_drop]
  have left := filter_window (parts ▸ distinct)
  rw [← parts] at left
  rw [left]
  by_cases few : sorted.length ≤ keepCount
  · simp [List.drop_eq_nil_of_le few]
  · have length : (sorted.take keepCount).length = keepCount := by
      rw [List.length_take]
      omega
    exact List.drop_left' length

/-! ## The loop -/

/-- The ids of all rows past the newest `keepCount`. -/
def surplus (status queueName : Option String) (keepCount : Nat)
    (db : RetentionDb Rest) : List JobId :=
  ((selected status queueName db).drop keepCount).map fun row => row.id

theorem surplus_eq_append (status queueName : Option String)
    (keepCount batchSize : Nat) (db : RetentionDb Rest) :
    surplus status queueName keepCount db =
      older status queueName keepCount batchSize db ++
        surplus status queueName keepCount (deleteHistoryBatch
          (older status queueName keepCount batchSize db) db).1 := by
  rw [surplus, surplus, drop_selected_delete, older, ← List.map_append,
    List.take_append_drop]

theorem count_of_sublist {rows : List (JobHistory Rest)}
    {db : RetentionDb Rest}
    (part : rows.Sublist (selected status queueName db)) :
    (deleteHistoryBatch (rows.map fun row => row.id) db).2 = rows.length := by
  apply deleteHistoryBatch_count
  · exact (nodup_ids_selected status queueName db).of_map.sublist part
  · intro row member
    exact (mem_selected.mp (part.subset member)).1

theorem older_count (db : RetentionDb Rest) :
    (deleteHistoryBatch (older status queueName keepCount batchSize db)
      db).2 = (older status queueName keepCount batchSize db).length := by
  have part : (((selected status queueName db).drop keepCount).take
      batchSize).Sublist (selected status queueName db) :=
    (List.take_sublist _ _).trans (List.drop_sublist _ _)
  rw [older, List.length_map]
  exact count_of_sublist part

/-- The batches together delete what one batch without a limit would. -/
theorem deleteOlder_eq (positive : 0 < batchSize) (db : RetentionDb Rest)
    (deleted : Nat) :
    deleteOlder status queueName keepCount batchSize db deleted =
      ((deleteHistoryBatch (surplus status queueName keepCount db) db).1,
        deleted + (surplus status queueName keepCount db).length) := by
  induction db, deleted using deleteOlder.induct status queueName keepCount
    batchSize with
  | case1 db deleted ids none =>
      have empty : surplus status queueName keepCount db = [] := by
        have cut : ((selected status queueName db).drop keepCount).take
            batchSize = [] := List.map_eq_nil_iff.mp none
        rcases List.take_eq_nil_iff.mp cut with zero | nothing
        · omega
        · rw [surplus, nothing, List.map_nil]
      rw [deleteOlder, if_pos none, empty]
      simp
  | case2 db deleted ids some batch nothing =>
      have length : ids.length = 0 := (older_count db).symm.trans nothing
      exact (some (List.length_eq_zero_iff.mp length)).elim
  | case3 db deleted ids some batch counted induction =>
      have whole := surplus_eq_append status queueName keepCount batchSize db
      rw [deleteOlder, if_neg some, if_neg counted, induction, whole,
        deleteHistoryBatch_append, List.length_append, older_count,
        Nat.add_assoc]

/-! ## What a cleanup keeps -/

/-- The rows that match the filters and are newer. -/
def newer (status queueName : Option String) (rows : List (JobHistory Rest))
    (row : JobHistory Rest) : List (JobHistory Rest) :=
  rows.filter fun other =>
    filters status queueName other && recency row < recency other

/-- The job has a row before and none after. -/
def jobDeleted (before after : RetentionDb Rest) (job : JobId) : Bool :=
  (before.history.rows.any fun row => row.id = job) &&
    !after.history.rows.any fun row => row.id = job

structure KeepsNewest (status queueName : Option String) (keepCount : Nat)
    (before after : RetentionDb Rest) (result : Cleaned) : Prop where
  history : after.history.rows = before.history.rows.filter fun row =>
    !filters status queueName row ||
      (newer status queueName before.history.rows row).length < keepCount
  remaining : (after.history.rows.filter (filters status queueName)).length =
    min keepCount
      (before.history.rows.filter (filters status queueName)).length
  attempts : after.attempts = before.attempts.filter fun attempt =>
    !(attempt.finishedAt.isSome && jobDeleted before after attempt.jobId)
  deleted : after.history.rows.length + result.deleted =
    before.history.rows.length
  count : result.count = result.deleted
  kept : result.kept =
    (after.history.rows.filter (filters status queueName)).length

theorem mem_surplus_iff {db : RetentionDb Rest} {row : JobHistory Rest}
    (member : row ∈ db.history.rows) :
    row.id ∈ surplus status queueName keepCount db ↔
      filters status queueName row = true ∧
        keepCount ≤
          (newer status queueName db.history.rows row).length := by
  have strict := pairwise_descending
    (distinct_recency db (filters status queueName))
  have above : ((selected status queueName db).filter fun other =>
      recency row < recency other).length =
        (newer status queueName db.history.rows row).length := by
    have permuted := (perm_descending recency (db.history.rows.filter
      (filters status queueName))).filter fun other =>
        recency row < recency other
    rw [List.filter_filter] at permuted
    rw [selected, permuted.length_eq, newer]
    congr 2
    funext other
    exact Bool.and_comm _ _
  rw [← above]
  constructor
  · intro chosen
    obtain ⟨other, isOther, same⟩ := List.mem_map.mp chosen
    have isSelected := List.mem_of_mem_drop isOther
    have equal := List.inj_on_of_nodup_map db.history.nodup
      (mem_selected.mp isSelected).1 member same
    subst equal
    exact ⟨(mem_selected.mp isSelected).2,
      (mem_drop_iff keepCount strict isSelected).mp isOther⟩
  · intro both
    have isSelected : row ∈ selected status queueName db :=
      mem_selected.mpr ⟨member, both.1⟩
    exact List.mem_map_of_mem
      ((mem_drop_iff keepCount strict isSelected).mpr both.2)

theorem mem_deleteHistoryBatch {ids : List JobId} {db : RetentionDb Rest}
    {row : JobHistory Rest} :
    row ∈ (deleteHistoryBatch ids db).1.history.rows ↔
      row ∈ db.history.rows ∧ row.id ∉ ids := by
  simp [deleteHistoryBatch, Table.retain]

theorem jobDeleted_surplus (db : RetentionDb Rest) (job : JobId) :
    jobDeleted db (deleteHistoryBatch
        (surplus status queueName keepCount db) db).1 job = true ↔
      job ∈ surplus status queueName keepCount db := by
  simp only [jobDeleted, Bool.and_eq_true, Bool.not_eq_true',
    List.any_eq_true, List.any_eq_false, decide_eq_true_iff]
  constructor
  · intro both
    obtain ⟨⟨row, member, same⟩, gone⟩ := both
    by_contra outside
    rw [← same] at outside
    exact gone row (mem_deleteHistoryBatch.mpr ⟨member, outside⟩) same
  · intro chosen
    obtain ⟨row, isRow, same⟩ := List.mem_map.mp chosen
    have member := (mem_selected.mp (List.mem_of_mem_drop isRow)).1
    refine ⟨⟨row, member, same⟩, ?_⟩
    intro other left equal
    exact (mem_deleteHistoryBatch.mp left).2 (equal ▸ chosen)

theorem selected_surplus (db : RetentionDb Rest) :
    selected status queueName (deleteHistoryBatch
        (surplus status queueName keepCount db) db).1 =
      (selected status queueName db).take keepCount := by
  rw [selected_delete, surplus]
  have distinct := nodup_ids_selected status queueName db
  generalize selected status queueName db = sorted at distinct
  have parts : sorted =
      sorted.take keepCount ++ (sorted.drop keepCount ++ []) := by
    rw [List.append_nil, List.take_append_drop]
  have left := filter_window (parts ▸ distinct)
  rw [← parts, List.append_nil] at left
  exact left

theorem length_selected (db : RetentionDb Rest) :
    (selected status queueName db).length =
      (db.history.rows.filter (filters status queueName)).length :=
  length_descending

theorem keepsNewest_surplus (db : RetentionDb Rest) :
    KeepsNewest status queueName keepCount db
      (deleteHistoryBatch (surplus status queueName keepCount db) db).1
      { deleted := (surplus status queueName keepCount db).length
        count := (surplus status queueName keepCount db).length
        kept := min (db.history.rows.filter
          (filters status queueName)).length keepCount } := by
  have remaining : ((deleteHistoryBatch (surplus status queueName keepCount
      db) db).1.history.rows.filter (filters status queueName)).length =
        min keepCount
          (db.history.rows.filter (filters status queueName)).length := by
    rw [← length_selected, selected_surplus, List.length_take,
      length_selected]
  constructor
  · apply List.filter_congr
    intro row member
    rw [Bool.eq_iff_iff]
    simp [mem_surplus_iff member]
  · exact remaining
  · apply List.filter_congr
    intro attempt _
    rw [Bool.and_comm]
    congr 2
    rw [Bool.eq_iff_iff, decide_eq_true_iff, jobDeleted_surplus]
  · have counted := count_of_sublist
      (List.drop_sublist keepCount (selected status queueName db))
    have length := deleteHistoryBatch_length
      (surplus status queueName keepCount db) db
    rw [surplus, List.length_map, ← counted]
    exact length
  · rfl
  · rw [remaining, Nat.min_comm]

/-- Count-based cleanup keeps the newest rows of those that match, whatever
the size of its batches. -/
theorem cleanupJobsByCount_keepsNewest (status queueName : Option String)
    (keepCount batchSize : Nat) (positive : 0 < batchSize)
    (db : RetentionDb Rest) :
    KeepsNewest status queueName keepCount db
      (cleanupJobsByCount status keepCount queueName false batchSize db).1
      (cleanupJobsByCount status keepCount queueName false batchSize db).2 := by
  have cleaned : cleanupJobsByCount status keepCount queueName false batchSize
      db =
        ((deleteHistoryBatch (surplus status queueName keepCount db) db).1,
          { deleted := (surplus status queueName keepCount db).length
            count := (surplus status queueName keepCount db).length
            kept := min (db.history.rows.filter
              (filters status queueName)).length keepCount }) := by
    simp [cleanupJobsByCount, deleteOlder_eq positive]
  rw [cleaned]
  exact keepsNewest_surplus db

/-- Three jobs of one instant and an older one of another status. -/
def tiedJobs : RetentionDb Unit where
  history :=
    { rows :=
        [ { id := 1, finishedAt := 5, status := "success",
            queueName := "default", rest := () },
          { id := 3, finishedAt := 5, status := "success",
            queueName := "default", rest := () },
          { id := 2, finishedAt := 5, status := "success",
            queueName := "default", rest := () },
          { id := 4, finishedAt := 1, status := "failed",
            queueName := "default", rest := () } ]
      nodup := by decide }
  attempts :=
    [ { id := 7, jobId := 1, token := "first", claimedAt := 2,
        finishedAt := some 5, outcome := some .success },
      { id := 8, jobId := 2, token := "second", claimedAt := 2 },
      { id := 9, jobId := 4, token := "third", claimedAt := 0,
        finishedAt := some 1, outcome := some .failed } ]

theorem cleanupJobsByCount_keepsNewest_tiedJobs :
    KeepsNewest (some "success") none 1 tiedJobs
      (cleanupJobsByCount (some "success") 1 none false 1 tiedJobs).1
      (cleanupJobsByCount (some "success") 1 none false 1 tiedJobs).2 :=
  cleanupJobsByCount_keepsNewest (some "success") none 1 1 (by decide)
    tiedJobs

end Sqlery.History
