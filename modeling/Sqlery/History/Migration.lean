import Mathlib.Data.List.Perm.Basic
import Mathlib.Data.List.Nodup
import Sqlery.History.Batches

/-!
# What the history migration moves

The rows of `move_terminal_rows`, statement by statement, and what a run that
returns has left in the two tables.
-/

namespace Sqlery.History

open ReadCommitted

variable {Rest : Type} {ignoreCase : Bool}

theorem mem_of_mem_first {batch : Nat}
    {before : Row Rest → Row Rest → Bool} {rows : List (Row Rest)}
    {row : Row Rest} (member : row ∈ first batch before rows) : row ∈ rows :=
  (List.mem_insertionSort _).mp (List.mem_of_mem_take member)

theorem exists_mem_first {batch : Nat} (positive : 0 < batch)
    (before : Row Rest → Row Rest → Bool) {rows : List (Row Rest)}
    {row : Row Rest} (member : row ∈ rows) :
    ∃ chosen, chosen ∈ first batch before rows := by
  have sorted : row ∈ rows.insertionSort fun left right =>
      before left right = true :=
    (List.mem_insertionSort _).mpr member
  cases at_ : rows.insertionSort fun left right => before left right = true with
  | nil => simp [at_] at sorted
  | cons head tail =>
      obtain ⟨less, rfl⟩ := Nat.exists_eq_add_of_lt positive
      exact ⟨head, by simp [first, at_]⟩

theorem isLive_iff {db : Db Rest} {row : Row Rest} :
    isLive db row = true ↔ ∃ live ∈ db.live.rows, live.id = row.id := by
  simp [isLive]

theorem inHistory_iff {db : Db Rest} {row : Row Rest} :
    inHistory db row = true ↔ ∃ old ∈ db.history, old.id = row.id := by
  simp [inHistory]

/-! ## The conditions of the two statements -/

theorem backfills_of_where {batch : Option Nat} {db : Db Rest}
    {row : Row Rest} (chosen : backfillWhere ignoreCase batch db row = true) :
    backfills ignoreCase row = true := by
  cases batch with
  | none => exact chosen
  | some batch =>
      simp only [backfillWhere, Bool.and_eq_true] at chosen
      exact chosen.1

/-- A batch chooses some row, if there is one to choose. -/
theorem exists_where {batch : Nat} (positive : 0 < batch) {db : Db Rest}
    {row : Row Rest} (member : row ∈ db.live.rows)
    (goes : backfills ignoreCase row = true) :
    ∃ chosen ∈ db.live.rows,
      backfillWhere ignoreCase (some batch) db chosen = true := by
  have candidate : row ∈ db.live.rows.filter (backfills ignoreCase) :=
    List.mem_filter.mpr ⟨member, goes⟩
  obtain ⟨chosen, isFirst⟩ :=
    exists_mem_first positive createdBefore candidate
  obtain ⟨isLive, chosenGoes⟩ :=
    List.mem_filter.mp (mem_of_mem_first isFirst)
  refine ⟨chosen, isLive, ?_⟩
  simp only [backfillWhere, chosenGoes, Bool.true_and, List.any_eq_true]
  exact ⟨chosen, isFirst, by simp⟩

/-! ## The insert -/

theorem mem_insertIgnore {rows history : List (Row Rest)} {row : Row Rest} :
    row ∈ (insertIgnore history rows).1 → row ∈ history ∨ row ∈ rows := by
  induction rows generalizing history with
  | nil => exact Or.inl
  | cons head rows induction =>
      intro member
      simp only [insertIgnore] at member
      split at member
      · rcases induction member with old | new
        · exact .inl old
        · exact .inr (List.mem_cons_of_mem _ new)
      · rcases induction member with old | new
        · rcases List.mem_append.mp old with old | isHead
          · exact .inl old
          · rw [List.mem_singleton.mp isHead]
            exact .inr List.mem_cons_self
        · exact .inr (List.mem_cons_of_mem _ new)

theorem mem_insertIgnore_of_mem {rows history : List (Row Rest)}
    {row : Row Rest} (member : row ∈ history) :
    row ∈ (insertIgnore history rows).1 := by
  induction rows generalizing history with
  | nil => exact member
  | cons head rows induction =>
      simp only [insertIgnore]
      split
      · exact induction member
      · exact induction (List.mem_append_left _ member)

/-- Every row is in the table afterwards, by its id. -/
theorem id_mem_insertIgnore {rows history : List (Row Rest)} {row : Row Rest}
    (member : row ∈ rows) :
    ∃ old ∈ (insertIgnore history rows).1, old.id = row.id := by
  induction rows generalizing history with
  | nil => cases member
  | cons head rows induction =>
      simp only [insertIgnore]
      rcases List.mem_cons.mp member with rfl | later
      · split
        · rename_i taken
          obtain ⟨old, isOld, same⟩ := List.any_eq_true.mp taken
          simp only [sameKey, Bool.and_eq_true, decide_eq_true_eq] at same
          exact ⟨old, mem_insertIgnore_of_mem isOld, same.2.symm⟩
        · have added : row ∈ history ++ [row] := by simp
          exact ⟨row, mem_insertIgnore_of_mem added, rfl⟩
      · split
        · exact induction later
        · exact induction later

/-- Rows whose id is taken by the same row only keep the ids apart. -/
theorem nodup_insertIgnore {rows history : List (Row Rest)}
    (distinct : (history.map fun old => old.id).Nodup)
    (agree : ∀ row ∈ rows, ∀ old ∈ history, old.id = row.id → old = row)
    (once : ∀ left ∈ rows, ∀ right ∈ rows, left.id = right.id → left = right) :
    ((insertIgnore history rows).1.map fun old => old.id).Nodup := by
  induction rows generalizing history with
  | nil => exact distinct
  | cons head rows induction =>
      have onceRest : ∀ left ∈ rows, ∀ right ∈ rows,
          left.id = right.id → left = right :=
        fun left isLeft right isRight => once left
          (List.mem_cons_of_mem _ isLeft) right (List.mem_cons_of_mem _ isRight)
      simp only [insertIgnore]
      split
      · exact induction distinct (fun row member => agree row
          (List.mem_cons_of_mem _ member)) onceRest
      · rename_i fresh
        have absent : ∀ old ∈ history, old.id ≠ head.id := by
          intro old isOld same
          have isHead := agree head List.mem_cons_self old isOld same
          apply fresh
          exact List.any_eq_true.mpr ⟨old, isOld, by simp [sameKey, isHead]⟩
        apply induction
        · rw [List.map_append, List.nodup_append]
          refine ⟨distinct, by simp, ?_⟩
          intro id isOld other isHead same
          obtain ⟨old, member, rfl⟩ := List.mem_map.mp isOld
          have otherId : other = head.id := by simpa using isHead
          exact absent old member (same.trans otherId)
        · intro row member old isOld same
          rcases List.mem_append.mp isOld with isOld | isHead
          · exact agree row (List.mem_cons_of_mem _ member) old isOld same
          · rw [List.mem_singleton.mp isHead] at same ⊢
            exact once head List.mem_cons_self row
              (List.mem_cons_of_mem _ member) same
        · exact onceRest

/-! ## What a batch keeps -/

/-- The rows that history holds in the end: those still to be copied, and
those whose live row is gone. -/
def Outcome (ignoreCase : Bool) (db : Db Rest) (row : Row Rest) : Prop :=
  (∃ live ∈ db.live.rows, backfills ignoreCase live = true ∧
      copied live = row) ∨
    row ∈ db.history ∧ isLive db row = false

/-- The tables on the way from `start`. -/
structure Moving (ignoreCase : Bool) (start db : Db Rest) : Prop where
  distinct : (db.history.map fun old => old.id).Nodup
  copies : ∀ row ∈ db.live.rows, ∀ old ∈ db.history, old.id = row.id →
    backfills ignoreCase row = true ∧ old = copied row
  kept : db.live.rows.filter (fun row => !backfills ignoreCase row) =
    start.live.rows.filter fun row => !backfills ignoreCase row
  outcome : ∀ row, Outcome ignoreCase db row ↔ Outcome ignoreCase start row

/-- A copy in history belongs to a live row that goes. -/
structure Resumable (ignoreCase : Bool) (db : Db Rest) : Prop where
  distinct : (db.history.map fun old => old.id).Nodup
  copies : ∀ row ∈ db.live.rows, ∀ old ∈ db.history, old.id = row.id →
    backfills ignoreCase row = true ∧ old = copied row

theorem Resumable.moving {db : Db Rest} (resumable : Resumable ignoreCase db) :
    Moving ignoreCase db db where
  distinct := resumable.distinct
  copies := resumable.copies
  kept := rfl
  outcome _ := Iff.rfl

/-- The chosen rows are in history. -/
def Chosen (ignoreCase : Bool) (batch _inserted : Nat) (db : Db Rest) : Prop :=
  ∀ row ∈ db.live.rows,
    backfillWhere ignoreCase (some batch) db row = true →
      inHistory db row = true

def Moved (ignoreCase : Bool) (db : Db Rest) : Prop :=
  ∀ row ∈ db.live.rows, backfills ignoreCase row = false

theorem chosen_insert (batch : Nat) (db : Db Rest) :
    Chosen ignoreCase batch (backfillHistorySql ignoreCase (some batch) db).2
      (backfillHistorySql ignoreCase (some batch) db).1 := by
  intro row member chosen
  have selected : copied row ∈
      (db.live.rows.filter (backfillWhere ignoreCase (some batch) db)).map
        copied :=
    List.mem_map_of_mem (List.mem_filter.mpr ⟨member, chosen⟩)
  obtain ⟨old, isOld, same⟩ := id_mem_insertIgnore selected
  exact inHistory_iff.mpr ⟨old, isOld, same⟩

theorem Moving.insert {start db : Db Rest} {batch : Option Nat}
    (moving : Moving ignoreCase start db) :
    Moving ignoreCase start (backfillHistorySql ignoreCase batch db).1 := by
  have added : ∀ row ∈ (db.live.rows.filter
      (backfillWhere ignoreCase batch db)).map copied,
        ∃ live ∈ db.live.rows, backfills ignoreCase live = true ∧
          copied live = row := by
    intro row member
    obtain ⟨live, selected, rfl⟩ := List.mem_map.mp member
    obtain ⟨isLive, chosen⟩ := List.mem_filter.mp selected
    exact ⟨live, isLive, backfills_of_where chosen, rfl⟩
  have whole : ∀ row ∈ (backfillHistorySql ignoreCase batch db).1.history,
      row ∈ db.history ∨ ∃ live ∈ db.live.rows,
        backfills ignoreCase live = true ∧ copied live = row := by
    intro row member
    exact (mem_insertIgnore member).imp id (added row)
  constructor
  · apply nodup_insertIgnore moving.distinct
    · intro row member old isOld same
      obtain ⟨live, isLive, _, rfl⟩ := added row member
      exact (moving.copies live isLive old isOld same).2
    · intro left isLeft right isRight same
      obtain ⟨leftLive, inLeft, _, rfl⟩ := added left isLeft
      obtain ⟨rightLive, inRight, _, rfl⟩ := added right isRight
      rw [eq_of_key inLeft inRight same]
  · intro row member old isOld same
    rcases whole old isOld with before | ⟨live, isLive, goes, rfl⟩
    · exact moving.copies row member old before same
    · have isRow := eq_of_key isLive member same
      rw [← isRow]
      exact ⟨goes, rfl⟩
  · exact moving.kept
  · intro row
    rw [← moving.outcome row]
    constructor
    · rintro (live | ⟨member, gone⟩)
      · exact .inl live
      · rcases whole row member with before | live
        · exact .inr ⟨before, gone⟩
        · exact .inl live
    · rintro (live | ⟨member, gone⟩)
      · exact .inl live
      · exact .inr ⟨mem_insertIgnore_of_mem member, gone⟩

/-! ## The delete -/

theorem mem_deleted {batch : Option Nat} {db : Db Rest} {row : Row Rest} :
    row ∈ (backfillDeleteSql ignoreCase batch db).1.live.rows ↔
      row ∈ db.live.rows ∧
        ¬(backfillWhere ignoreCase batch db row = true ∧
          inHistory db row = true) := by
  simp only [backfillDeleteSql, Table.retain, List.mem_filter,
    Bool.not_eq_true',
    Bool.and_eq_false_iff, not_and_or, Bool.not_eq_true]

theorem kept_delete (batch : Option Nat) (db : Db Rest) :
    ((backfillDeleteSql ignoreCase batch db).1.live.rows.filter fun row =>
        !backfills ignoreCase row) =
      db.live.rows.filter fun row => !backfills ignoreCase row := by
  simp only [backfillDeleteSql, Table.retain, List.filter_filter]
  apply List.filter_congr
  intro row _
  cases goes : backfills ignoreCase row with
  | true => simp
  | false =>
      have notChosen : backfillWhere ignoreCase batch db row = false := by
        rw [← Bool.not_eq_true]
        intro chosen
        rw [backfills_of_where chosen] at goes
        cases goes
      simp [notChosen]

theorem Moving.delete {start db : Db Rest} {batch : Option Nat}
    (moving : Moving ignoreCase start db) :
    Moving ignoreCase start (backfillDeleteSql ignoreCase batch db).1 := by
  constructor
  · exact moving.distinct
  · intro row member old isOld same
    exact moving.copies row (mem_deleted.mp member).1 old isOld same
  · rw [kept_delete]
    exact moving.kept
  · intro row
    rw [← moving.outcome row]
    constructor
    · rintro (⟨live, member, goes, rfl⟩ | ⟨member, gone⟩)
      · exact .inl ⟨live, (mem_deleted.mp member).1, goes, rfl⟩
      · cases stays : isLive db row with
        | false => exact .inr ⟨member, stays⟩
        | true =>
            obtain ⟨live, isLive, same⟩ := isLive_iff.mp stays
            obtain ⟨goes, isCopy⟩ :=
              moving.copies live isLive row member same.symm
            exact .inl ⟨live, isLive, goes, isCopy.symm⟩
    · rintro (⟨live, member, goes, rfl⟩ | ⟨member, gone⟩)
      · by_cases deleted : backfillWhere ignoreCase batch db live = true ∧
            inHistory db live = true
        · obtain ⟨old, isOld, same⟩ := inHistory_iff.mp deleted.2
          have isCopy := (moving.copies live member old isOld same).2
          refine .inr ⟨isCopy ▸ isOld, ?_⟩
          rw [← Bool.not_eq_true, isLive_iff]
          rintro ⟨other, stays, sameId⟩
          obtain ⟨isOther, notDeleted⟩ := mem_deleted.mp stays
          rw [eq_of_key isOther member sameId] at notDeleted
          exact notDeleted deleted
        · exact .inl ⟨live, mem_deleted.mpr ⟨member, deleted⟩, goes, rfl⟩
      · refine .inr ⟨member, ?_⟩
        rw [← Bool.not_eq_true, isLive_iff] at gone ⊢
        rintro ⟨live, stays, same⟩
        exact gone ⟨live, (mem_deleted.mp stays).1, same⟩

/-- A delete that finds nothing leaves nothing to move. -/
theorem moved_delete {batch : Nat} (positive : 0 < batch) {db : Db Rest}
    {inserted : Nat} (chosen : Chosen ignoreCase batch inserted db)
    (nothing : (backfillDeleteSql ignoreCase (some batch) db).2 = 0) :
    Moved ignoreCase db := by
  intro row member
  rw [← Bool.not_eq_true]
  intro goes
  obtain ⟨first, isFirst, where_⟩ := exists_where positive member goes
  have deleted : first ∈ db.live.rows.filter fun row =>
      backfillWhere ignoreCase (some batch) db row && inHistory db row :=
    List.mem_filter.mpr ⟨isFirst, by simp [where_, chosen first isFirst where_]⟩
  rw [List.length_eq_zero_iff.mp nothing] at deleted
  cases deleted

theorem batches_moveTerminalRows (start : Db Rest) :
    Batches (moveTerminalRows ignoreCase) (Moving ignoreCase start)
      (Chosen ignoreCase) (Moved ignoreCase) := by
  constructor
  · intro batch db positive moving
    exact ⟨moving.insert, chosen_insert batch db⟩
  · intro batch inserted db positive moving chosen
    constructor
    · exact moving.delete
    · intro _ nothing row member
      exact moved_delete positive chosen nothing row (mem_deleted.mp member).1

/-! ## Every batch leaves less to move -/

def remaining (ignoreCase : Bool) (db : Db Rest) : Nat :=
  (db.live.rows.filter (backfills ignoreCase)).length

/-- With nothing to move both statements report no row. -/
theorem idle_moveTerminalRows (batch : Option Nat) {db : Db Rest}
    (moved : Moved ignoreCase db) :
    backfillHistorySql ignoreCase batch db = (db, 0) ∧
      (backfillDeleteSql ignoreCase batch db).2 = 0 := by
  have none_ : ∀ row ∈ db.live.rows,
      backfillWhere ignoreCase batch db row = false := by
    intro row member
    rw [← Bool.not_eq_true]
    intro chosen
    have goes := backfills_of_where chosen
    rw [moved row member] at goes
    cases goes
  have noRows : db.live.rows.filter (backfillWhere ignoreCase batch db) = [] :=
    List.filter_eq_nil_iff.mpr fun row member => by simp [none_ row member]
  constructor
  · simp [backfillHistorySql, noRows, insertIgnore]
  · simp only [backfillDeleteSql, List.length_eq_zero_iff,
      List.filter_eq_nil_iff]
    intro row member
    simp [none_ row member]

theorem shrinks_moveTerminalRows :
    Shrinks (moveTerminalRows ignoreCase : Statements Rest)
      (remaining ignoreCase) := by
  intro batch db positive
  by_cases moved : Moved ignoreCase db
  · left
    obtain ⟨inserted, removed⟩ :=
      idle_moveTerminalRows (some batch) moved
    simp only [moveTerminalRows, inserted]
    exact ⟨trivial, removed⟩
  · right
    simp only [Moved, not_forall, Bool.not_eq_false] at moved
    obtain ⟨row, member, goes⟩ := moved
    obtain ⟨chosen, isLive, where_⟩ := exists_where positive member goes
    let inserted := (backfillHistorySql ignoreCase (some batch) db).1
    have copy : inHistory inserted chosen = true :=
      chosen_insert batch db chosen isLive where_
    have gone : chosen ∉
        (backfillDeleteSql ignoreCase (some batch) inserted).1.live.rows := by
      intro stays
      exact (mem_deleted.mp stays).2 ⟨where_, copy⟩
    have fewer : ((backfillDeleteSql ignoreCase (some batch)
        inserted).1.live.rows.filter (backfills ignoreCase)).Sublist
          (db.live.rows.filter (backfills ignoreCase)) :=
      List.Sublist.filter _ List.filter_sublist
    apply Nat.lt_of_not_le
    intro noFewer
    have same := fewer.eq_of_length_le noFewer
    have isCandidate : chosen ∈ db.live.rows.filter (backfills ignoreCase) :=
      List.mem_filter.mpr ⟨isLive, backfills_of_where where_⟩
    rw [← same] at isCandidate
    exact gone (List.mem_filter.mp isCandidate).1

/-! ## The way back -/

/-- Some table has a row of the job. -/
def Known (db : Db Rest) (id : JobId) : Prop :=
  (∃ row ∈ db.live.rows, row.id = id) ∨ ∃ old ∈ db.history, old.id = id

def Restoring (start db : Db Rest) : Prop :=
  ∀ id, Known db id ↔ Known start id

theorem mem_insertLive {rows : List (Row Rest)} {live : Live Rest}
    {row : Row Rest} :
    row ∈ (insertLive live rows).1.rows → row ∈ live.rows ∨ row ∈ rows := by
  induction rows generalizing live with
  | nil => exact Or.inl
  | cons head rows induction =>
      intro member
      rcases induction member with inserted | later
      · rcases Table.mem_insert_iff.mp inserted with ⟨rfl, _⟩ | old
        · exact .inr List.mem_cons_self
        · exact .inl old
      · exact .inr (List.mem_cons_of_mem _ later)

theorem mem_insertLive_of_mem {rows : List (Row Rest)} {live : Live Rest}
    {row : Row Rest} (member : row ∈ live.rows) :
    row ∈ (insertLive live rows).1.rows := by
  induction rows generalizing live with
  | nil => exact member
  | cons head rows induction =>
      exact induction (Table.mem_insert_iff.mpr (.inr member))

/-- Every row is in the table afterwards, by its id. -/
theorem id_mem_insertLive (live : Live Rest) {rows : List (Row Rest)}
    {row : Row Rest} (member : row ∈ rows) :
    ∃ old ∈ (insertLive live rows).1.rows, old.id = row.id := by
  induction rows generalizing live with
  | nil => cases member
  | cons head rows induction =>
      have stays_of : ∀ {old}, old ∈ (live.insert head).rows →
          old ∈ (insertLive live (head :: rows)).1.rows := fun isOld =>
        (mem_insertLive_of_mem isOld :)
      rcases List.mem_cons.mp member with rfl | later
      · cases found : live.get row.id with
        | none =>
            have added : row ∈ (live.insert row).rows :=
              Table.mem_insert_iff.mpr (.inl ⟨rfl, found⟩)
            have isRow : row ∈ (insertLive live (row :: rows)).1.rows :=
              stays_of added
            exact ⟨row, isRow, rfl⟩
        | some old =>
            have stays : old ∈ (live.insert row).rows :=
              Table.mem_insert_iff.mpr (.inr (Table.mem_of_get found))
            have isKey := Table.key_of_get found
            have isOld : old ∈ (insertLive live (row :: rows)).1.rows :=
              stays_of stays
            exact ⟨old, isOld, isKey⟩
      · exact induction _ later

/-- An insert that adds no row found the ids of all of them. -/
theorem taken_of_insertLive {rows : List (Row Rest)} {live : Live Rest} :
    (insertLive live rows).2 = 0 →
      ∀ row ∈ rows, ∃ old ∈ live.rows, old.id = row.id := by
  induction rows generalizing live with
  | nil => intro _ row member; cases member
  | cons head rows induction =>
      intro nothing row member
      simp only [insertLive] at nothing
      split at nothing
      · rename_i taken
        obtain ⟨held, isHeld, sameHead⟩ := List.mem_map.mp taken
        rcases List.mem_cons.mp member with rfl | later
        · exact ⟨held, isHeld, sameHead⟩
        · obtain ⟨old, isOld, same⟩ := induction nothing row later
          rcases Table.mem_insert_iff.mp isOld with ⟨rfl, _⟩ | isOld
          · exact ⟨held, isHeld, sameHead.trans same⟩
          · exact ⟨old, isOld, same⟩
      · omega

theorem known_insert (batch : Nat) (db : Db Rest) (id : JobId) :
    Known (restoreInsertSql batch db).1 id ↔ Known db id := by
  constructor
  · rintro (⟨row, member, same⟩ | old)
    · rcases mem_insertLive member with live | restored
      · exact .inl ⟨row, live, same⟩
      · exact .inr ⟨row, (List.mem_filter.mp restored).1, same⟩
    · exact .inr old
  · rintro (⟨row, member, same⟩ | old)
    · exact .inl ⟨row, mem_insertLive_of_mem member, same⟩
    · exact .inr old

theorem known_delete (db : Db Rest) (id : JobId) :
    Known (restoreDeleteSql db).1 id ↔ Known db id := by
  constructor
  · rintro (row | ⟨old, member, same⟩)
    · exact .inl row
    · exact .inr ⟨old, (List.mem_filter.mp member).1, same⟩
  · rintro (row | ⟨old, member, same⟩)
    · exact .inl row
    · cases live : isLive db old with
      | false =>
          exact .inr ⟨old, List.mem_filter.mpr ⟨member, by simp [live]⟩, same⟩
      | true =>
          obtain ⟨row, isRow, sameRow⟩ := isLive_iff.mp live
          exact .inl ⟨row, isRow, sameRow.trans same⟩

/-- A batch picks some row of history that is not live, if there is one. -/
theorem exists_restores {batch : Nat} (positive : 0 < batch) {db : Db Rest}
    {old : Row Rest} (member : old ∈ db.history)
    (notLive : isLive db old = false) :
    ∃ chosen ∈ db.history,
      restores batch db chosen = true ∧ isLive db chosen = false := by
  have candidate : old ∈ db.history.filter fun old => !isLive db old :=
    List.mem_filter.mpr ⟨member, by simp [notLive]⟩
  obtain ⟨chosen, isFirst⟩ :=
    exists_mem_first positive finishedBefore candidate
  obtain ⟨isOld, chosenNotLive⟩ :=
    List.mem_filter.mp (mem_of_mem_first isFirst)
  refine ⟨chosen, isOld, ?_, by simpa using chosenNotLive⟩
  exact List.any_eq_true.mpr ⟨chosen, isFirst, by simp⟩

/-- An insert that adds no row has none left to add. -/
def Restored (_batch inserted : Nat) (db : Db Rest) : Prop :=
  inserted = 0 → ∀ old ∈ db.history, isLive db old = true

theorem restored_insert {batch : Nat} (positive : 0 < batch) (db : Db Rest) :
    Restored batch (restoreInsertSql batch db).2
      (restoreInsertSql batch db).1 := by
  intro nothing old member
  have isOld : old ∈ db.history := member
  have stays : isLive db old = true := by
    rw [← Bool.not_eq_false]
    intro notLive
    obtain ⟨chosen, isChosen, picked, absent⟩ :=
      exists_restores positive isOld notLive
    have taken := taken_of_insertLive nothing chosen
      (List.mem_filter.mpr ⟨isChosen, picked⟩)
    have live : isLive db chosen = true := isLive_iff.mpr taken
    rw [absent] at live
    cases live
  obtain ⟨row, isRow, same⟩ := isLive_iff.mp stays
  exact isLive_iff.mpr ⟨row, mem_insertLive_of_mem isRow, same⟩

theorem history_delete {db : Db Rest}
    (all : ∀ old ∈ db.history, isLive db old = true) :
    (restoreDeleteSql db).1.history = [] :=
  List.filter_eq_nil_iff.mpr fun old member => by simp [all old member]

theorem batches_restoreTerminalRows (start : Db Rest) :
    Batches restoreTerminalRows (Restoring start) Restored
      (fun db => db.history = []) := by
  constructor
  · intro batch db positive restoring
    constructor
    · intro id
      exact (known_insert batch db id).trans (restoring id)
    · exact restored_insert positive db
  · intro batch inserted db positive restoring restored
    constructor
    · intro id
      exact (known_delete db id).trans (restoring id)
    · intro nothing _
      exact history_delete (restored nothing)

def finished (db : Db Rest) : Nat := db.history.length

theorem shrinks_restoreTerminalRows :
    Shrinks (restoreTerminalRows : Statements Rest) finished := by
  intro batch db positive
  cases rows : db.history with
  | nil =>
      left
      constructor
      · simp [restoreTerminalRows, restoreInsertSql, rows, insertLive]
      · simp [restoreTerminalRows, restoreInsertSql, restoreDeleteSql, rows]
  | cons head tail =>
      right
      have someGone : ∃ old ∈ db.history,
          isLive (restoreInsertSql batch db).1 old = true := by
        have isHead : head ∈ db.history := by simp [rows]
        cases live : isLive db head with
        | true =>
            obtain ⟨row, isRow, same⟩ := isLive_iff.mp live
            exact ⟨head, isHead, isLive_iff.mpr
              ⟨row, mem_insertLive_of_mem isRow, same⟩⟩
        | false =>
            obtain ⟨chosen, isOld, picked, _⟩ :=
              exists_restores positive isHead live
            have inserted := id_mem_insertLive db.live
              (List.mem_filter.mpr ⟨isOld, picked⟩)
            exact ⟨chosen, isOld, isLive_iff.mpr inserted⟩
      obtain ⟨old, isOld, gone⟩ := someGone
      have fewer : (db.history.filter fun old =>
          !isLive (restoreInsertSql batch db).1 old).length <
            db.history.length :=
        List.length_filter_lt_length_iff_exists.mpr
          ⟨old, isOld, by simp [gone]⟩
      exact fewer

/-! ## A migration that returns -/

/-- The data a run may start from: history is empty, or a run was interrupted
before. -/
inductive Resumes (ignoreCase : Bool) : Db Rest → Prop where
  | fresh {db : Db Rest} (empty : db.history = []) : Resumes ignoreCase db
  | interrupted {db : Db Rest} (before : Resumes ignoreCase db)
      {autocommit : Bool} {batch : Nat} (positive : 0 < batch) {run : Run Rest}
      (ran : Runs autocommit (moveTerminalRows ignoreCase)
        (.start batch db) run) : Resumes ignoreCase run.committed

theorem Resumes.resumable {db : Db Rest} (resumes : Resumes ignoreCase db) :
    Resumable ignoreCase db := by
  induction resumes with
  | fresh empty =>
      constructor
      · simp [empty]
      · intro row _ old isOld
        simp [empty] at isOld
  | interrupted _ positive ran before =>
      have underway := Underway.runs (batches_moveTerminalRows _) ran
        (.start positive before.moving)
      exact ⟨underway.committed.distinct, underway.committed.copies⟩

/-- A finished row without the retry marker. -/
def settled (row : Row Rest) : Bool :=
  isTerminal row.status && !isRetryPending row.terminationReason

/-- The restore of `db`, crashes included, brings every job back. -/
def RestoresAll (original db : Db Rest) : Prop :=
  ∀ (autocommit : Bool) (batch : Nat), 0 < batch → ∀ run,
    Runs autocommit restoreTerminalRows (.start batch db) run →
      Returns autocommit restoreTerminalRows run ∧
        (run.stage.hasReturned = true →
          (∀ id, (∃ row ∈ run.db.live.rows, row.id = id) ↔
            Known original id) ∧
          run.db.history = [])

/-- The migration of `db`, crashes included, leaves in the live table what is
not settled and adds to history what is, and can be taken back. -/
def MovesExactly (ignoreCase : Bool) (db : Db Rest) : Prop :=
  ∀ (autocommit : Bool) (batch : Nat), 0 < batch → ∀ run,
    Runs autocommit (moveTerminalRows ignoreCase) (.start batch db) run →
      Returns autocommit (moveTerminalRows ignoreCase) run ∧
        (run.stage.hasReturned = true →
          run.db.live.rows = db.live.rows.filter (fun row => !settled row) ∧
          run.db.history.Perm ((db.live.rows.filter settled).map copied ++
            db.history.filter fun old => !isLive db old) ∧
          RestoresAll db run.db)

theorem restoresAll {original db : Db Rest} (same : Restoring original db) :
    RestoresAll original db := by
  intro autocommit batch positive run ran
  have underway := Underway.runs (batches_restoreTerminalRows original) ran
    (.start positive same)
  constructor
  · exact returns_of_shrinks shrinks_restoreTerminalRows underway.positive
  · intro returned
    have empty : run.db.history = [] := underway.finished returned
    constructor
    · intro id
      rw [← underway.current id]
      simp [Known, empty]
    · exact empty

/-- What a run that returned has moved, by the condition of its statements. -/
theorem moved_exactly {db : Db Rest} (resumable : Resumable ignoreCase db)
    {run : Run Rest} (moving : Moving ignoreCase db run.db)
    (moved : Moved ignoreCase run.db) :
    run.db.live.rows =
        db.live.rows.filter (fun row => !backfills ignoreCase row) ∧
      run.db.history.Perm
        ((db.live.rows.filter (backfills ignoreCase)).map copied ++
          db.history.filter fun old => !isLive db old) := by
  constructor
  · rw [← moving.kept, eq_comm, List.filter_eq_self]
    intro row member
    simp [moved row member]
  · have gone : ∀ old ∈ run.db.history, isLive run.db old = false := by
      intro old isOld
      rw [← Bool.not_eq_true, isLive_iff]
      rintro ⟨row, member, same⟩
      have goes := (moving.copies row member old isOld same.symm).1
      rw [moved row member] at goes
      cases goes
    have distinct : (((db.live.rows.filter (backfills ignoreCase)).map copied ++
        db.history.filter fun old => !isLive db old).map
          fun row => row.id).Nodup := by
      rw [List.map_append, List.map_map, List.nodup_append]
      refine ⟨db.live.nodup.sublist (List.filter_sublist.map _),
        resumable.distinct.sublist (List.filter_sublist.map _), ?_⟩
      intro id fromLive other fromHistory same
      obtain ⟨row, isRow, rfl⟩ := List.mem_map.mp fromLive
      obtain ⟨old, isOld, rfl⟩ := List.mem_map.mp fromHistory
      obtain ⟨_, absent⟩ := List.mem_filter.mp isOld
      have live : isLive db old = true :=
        isLive_iff.mpr ⟨row, (List.mem_filter.mp isRow).1, same⟩
      simp [live] at absent
    apply (List.perm_ext_iff_of_nodup (.of_map _ moving.distinct)
      (.of_map _ distinct)).mpr
    intro row
    have outcome := moving.outcome row
    have inHistory : Outcome ignoreCase run.db row ↔ row ∈ run.db.history := by
      constructor
      · rintro (⟨live, member, goes, _⟩ | ⟨member, _⟩)
        · rw [moved live member] at goes
          cases goes
        · exact member
      · intro member
        exact .inr ⟨member, gone row member⟩
    rw [← inHistory, outcome]
    simp only [Outcome, List.mem_append, List.mem_map, List.mem_filter,
      and_assoc, Bool.not_eq_true']

/-- Moving loses no job. -/
theorem known_moved {db moved : Db Rest}
    (live : moved.live.rows =
      db.live.rows.filter fun row => !backfills ignoreCase row)
    (history : moved.history.Perm
      ((db.live.rows.filter (backfills ignoreCase)).map copied ++
        db.history.filter fun old => !isLive db old)) :
    Restoring db moved := by
  intro id
  have fromLive : ∀ row ∈ db.live.rows, row.id = id → Known moved id := by
    intro row member same
    cases goes : backfills ignoreCase row with
    | false =>
        left
        rw [live]
        exact ⟨row, List.mem_filter.mpr ⟨member, by simp [goes]⟩, same⟩
    | true =>
        right
        have copy := List.mem_map_of_mem (f := copied)
          (List.mem_filter.mpr ⟨member, goes⟩)
        exact ⟨copied row, history.mem_iff.mpr (List.mem_append_left _ copy),
          same⟩
  constructor
  · rintro (⟨row, member, same⟩ | ⟨old, member, same⟩)
    · rw [live] at member
      exact .inl ⟨row, (List.mem_filter.mp member).1, same⟩
    · rcases List.mem_append.mp (history.mem_iff.mp member) with copy | before
      · obtain ⟨row, goes, rfl⟩ := List.mem_map.mp copy
        exact .inl ⟨row, (List.mem_filter.mp goes).1, same⟩
      · exact .inr ⟨old, (List.mem_filter.mp before).1, same⟩
  · rintro (⟨row, member, same⟩ | ⟨old, member, same⟩)
    · exact fromLive row member same
    · cases stays : isLive db old with
      | true =>
          obtain ⟨row, isRow, sameRow⟩ := isLive_iff.mp stays
          exact fromLive row isRow (sameRow.trans same)
      | false =>
          right
          have before : old ∈ db.history.filter fun old => !isLive db old :=
            List.mem_filter.mpr ⟨member, by simp [stays]⟩
          exact ⟨old, history.mem_iff.mpr (List.mem_append_right _ before),
            same⟩

/-! ## The marker and the pattern -/

/-- The pattern matches every marker. -/
theorem like_of_isRetryPending {reason : String}
    (marked : isRetryPending reason = true) :
    likeRetryPending ignoreCase reason = true := by
  have starts : ∃ rest, reason.toList = "retry_pending".toList ++ rest := by
    simp only [isRetryPending, Bool.or_eq_true, decide_eq_true_eq] at marked
    rcases marked with same | longer
    · exact ⟨[], by rw [same, retryPending, List.append_nil]⟩
    · obtain ⟨rest, whole⟩ := List.isPrefixOf_iff_prefix.mp longer
      refine ⟨":".toList ++ rest, ?_⟩
      rw [← whole, retryPending, String.toList_append, List.append_assoc]
  obtain ⟨rest, whole⟩ := starts
  simp only [likeRetryPending, whole, List.map_append]
  cases ignoreCase <;> simp [List.isPrefixOf]

theorem backfills_eq_settled {row : Row Rest}
    (noOther : isTerminal row.status = true →
      likeRetryPending ignoreCase row.terminationReason = true →
        isRetryPending row.terminationReason = true) :
    backfills ignoreCase row = settled row := by
  simp only [backfills, settled]
  cases terminal : isTerminal row.status with
  | false => rfl
  | true =>
      cases like : likeRetryPending ignoreCase row.terminationReason with
      | true => simp [noOther terminal like]
      | false =>
          have unmarked : isRetryPending row.terminationReason = false := by
            rw [← Bool.not_eq_true]
            intro marked
            rw [like_of_isRetryPending marked] at like
            cases like
          simp [unmarked]

/-! ## The result -/

/-- The migration is exact and can be restarted and taken back, if and only if
the pattern `retry_pending%` finds no finished row without the marker. -/
theorem movesExactly_iff (ignoreCase : Bool) (db : Db Rest)
    (resumes : Resumes ignoreCase db) :
    MovesExactly ignoreCase db ↔
      ∀ row ∈ db.live.rows, isTerminal row.status = true →
        likeRetryPending ignoreCase row.terminationReason = true →
          isRetryPending row.terminationReason = true := by
  have resumable := resumes.resumable
  constructor
  · intro exact_ row member terminal like
    rw [← Bool.not_eq_false]
    intro unmarked
    have begun : Underway (Moving ignoreCase db) (Chosen ignoreCase)
        (Moved ignoreCase) (.start 1 db) :=
      .start Nat.one_pos resumable.moving
    have returns : Returns true (moveTerminalRows ignoreCase) (.start 1 db) :=
      returns_of_shrinks shrinks_moveTerminalRows begun.positive
    obtain ⟨statements, returned⟩ := returns
    have ran := runs_iterate true (moveTerminalRows ignoreCase)
      (Run.start 1 db) statements
    have underway := Underway.runs (batches_moveTerminalRows db) ran begun
    obtain ⟨byStatements, _⟩ := moved_exactly resumable underway.current
      (underway.finished returned)
    obtain ⟨asClaimed, _, _⟩ := (exact_ true 1 Nat.one_pos _ ran).2 returned
    rw [byStatements] at asClaimed
    have stays : row ∈ db.live.rows.filter fun row =>
        !backfills ignoreCase row :=
      List.mem_filter.mpr ⟨member, by simp [backfills, like]⟩
    rw [asClaimed] at stays
    have notSettled := (List.mem_filter.mp stays).2
    simp [settled, terminal, unmarked] at notSettled
  · intro noOther autocommit batch positive run ran
    have underway := Underway.runs (batches_moveTerminalRows db) ran
      (.start positive resumable.moving)
    constructor
    · exact returns_of_shrinks shrinks_moveTerminalRows underway.positive
    · intro returned
      obtain ⟨live, history⟩ := moved_exactly resumable underway.current
        (underway.finished returned)
      have same : ∀ row ∈ db.live.rows,
          backfills ignoreCase row = settled row := fun row member =>
        backfills_eq_settled (noOther row member)
      refine ⟨?_, ?_, ?_⟩
      · rw [live]
        apply List.filter_congr
        intro row member
        rw [same row member]
      · rw [← List.filter_congr same]
        exact history
      · exact restoresAll (known_moved live history)

/-- A failed row whose reason reads like the marker, in the words of whoever
ended the job. -/
def likeTheMarker : Db Unit where
  live := {
    rows := [
      { id := 1, createdAt := 10, status := .failed,
        terminationReason := "retry pending review", rest := () },
      { id := 2, createdAt := 11, status := .success, rest := () }]
    nodup := by decide }

/-- The row stays in the live table. -/
theorem movesExactly_likeTheMarker :
    Resumes false likeTheMarker ∧ ¬MovesExactly false likeTheMarker := by
  constructor
  · exact .fresh rfl
  · intro exact_
    have ran := runs_iterate true (moveTerminalRows false)
      (Run.start 5 likeTheMarker) 6
    obtain ⟨live, _, _⟩ := (exact_ true 5 (by decide) _ ran).2 (by decide)
    revert live
    decide

/-- A live table with finished and waiting rows, one of them owing a retry,
after a run was interrupted between the insert and the delete. -/
def interruptedRun : Run Unit :=
  (advance true (moveTerminalRows false))^[1] (Run.start 5 {
    live := {
      rows := [
        { id := 1, createdAt := 10, status := .failed,
          terminationReason := "retry_pending:timeout", rest := () },
        { id := 2, createdAt := 11, status := .success, rest := () },
        { id := 3, createdAt := 12, rest := () }]
      nodup := by decide } })

theorem movesExactly_iff_interruptedRun :
    MovesExactly false interruptedRun.committed ↔
      ∀ row ∈ interruptedRun.committed.live.rows,
        isTerminal row.status = true →
          likeRetryPending false row.terminationReason = true →
            isRetryPending row.terminationReason = true :=
  movesExactly_iff false interruptedRun.committed
    (.interrupted (.fresh rfl) (by decide : 0 < 5)
      (runs_iterate true (moveTerminalRows false) _ 1))

end Sqlery.History
