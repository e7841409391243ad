import Sqlery.Core.Decisions
import Sqlery.ReadCommitted.Table

/-!
# The live table, history and the attempts

The tables the migrations of `core.history` read and write.  A row carries the
columns that some statement names, as a `Job`, and all its other columns
together: the statements copy those as they are.
-/

namespace Sqlery.History

open ReadCommitted

structure Row (Rest : Type) extends Job where
  rest : Rest
  deriving DecidableEq, Repr

variable {Rest : Type}

abbrev Live (Rest : Type) := Table (fun row : Row Rest => row.id)

/-- `history` may hold an id twice: its key is `(finished_at, id)`. -/
structure Db (Rest : Type) where
  live : Live Rest
  history : List (Row Rest) := []
  attempts : List Attempt := []
  nextAttempt : AttemptId := 0

/-- `UPDATE .. SET` of columns other than the key. -/
def revise {K V : Type} {key : V → K} (table : Table key) (change : V → V)
    (keeps : ∀ row, key (change row) = key row) : Table key :=
  ⟨table.rows.map change, by
    have sameKeys : (table.rows.map change).map key = table.rows.map key := by
      rw [List.map_map]
      exact List.map_congr_left fun row _ => keeps row
    rw [sameKeys]
    exact table.nodup⟩

@[simp] theorem rows_revise {K V : Type} {key : V → K} (table : Table key)
    (change : V → V) (keeps : ∀ row, key (change row) = key row) :
    (revise table change keeps).rows = table.rows.map change := rfl

/-- Two rows of a table with one key are one row. -/
theorem eq_of_key {K V : Type} {key : V → K} {table : Table key}
    {left right : V} (isLeft : left ∈ table.rows) (isRight : right ∈ table.rows)
    (same : key left = key right) : left = right :=
  List.inj_on_of_nodup_map table.nodup isLeft isRight same

theorem table_ext {K V : Type} {key : V → K} {left right : Table key}
    (same : left.rows = right.rows) : left = right := by
  cases left
  cases right
  cases same
  rfl

end Sqlery.History
