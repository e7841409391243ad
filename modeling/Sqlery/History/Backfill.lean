import Mathlib.Data.List.Sort
import Mathlib.Logic.Relation
import Mathlib.Logic.Function.Iterate
import Sqlery.History.Rows

/-!
# The history migration

`move_terminal_rows` takes the finished rows of the live table into history and
`restore_terminal_rows` takes them back: a loop of batches, each an insert and
a delete that choose their rows by a condition of their own.  A run is a
machine with one statement a step, which may crash and start again between any
two of them.
-/

namespace Sqlery.History

open ReadCommitted

variable {Rest : Type}

/-! ## From the live table into history -/

/-- The terminal condition of `_backfill_where`; `ignoreCase` is SQLite's
`LIKE`. -/
def backfills (ignoreCase : Bool) (row : Row Rest) : Bool :=
  isTerminal row.status && !likeRetryPending ignoreCase row.terminationReason

def createdBefore (left right : Row Rest) : Bool :=
  left.createdAt < right.createdAt ||
    left.createdAt = right.createdAt && left.id ≤ right.id

/-- `ORDER BY .. LIMIT`. -/
def first (batch : Nat) (before : Row Rest → Row Rest → Bool)
    (rows : List (Row Rest)) : List (Row Rest) :=
  (rows.insertionSort fun left right => before left right = true).take batch

def backfillWhere (ignoreCase : Bool) (batch : Option Nat) (db : Db Rest)
    (row : Row Rest) : Bool :=
  match batch with
  | none => backfills ignoreCase row
  | some batch =>
      backfills ignoreCase row &&
        (first batch createdBefore
          (db.live.rows.filter (backfills ignoreCase))).any
            fun chosen => chosen.id = row.id

/-- `finished_at` is `COALESCE(finished_at, started_at, created_at)`. -/
def copied (row : Row Rest) : Row Rest :=
  { row with
    finishedAt := row.finishedAt.or (row.startedAt.or (some row.createdAt)) }

@[simp] theorem id_copied (row : Row Rest) : (copied row).id = row.id := rfl

/-- Both rows have the history's key. -/
def sameKey (left right : Row Rest) : Bool :=
  left.finishedAt = right.finishedAt && left.id = right.id

/-- `INSERT .. ON CONFLICT DO NOTHING` into history, with the row count. -/
def insertIgnore (history : List (Row Rest)) :
    List (Row Rest) → List (Row Rest) × Nat
  | [] => (history, 0)
  | row :: rows =>
      if history.any (sameKey row) then insertIgnore history rows
      else
        let rest := insertIgnore (history ++ [row]) rows
        (rest.1, rest.2 + 1)

def backfillHistorySql (ignoreCase : Bool) (batch : Option Nat)
    (db : Db Rest) : Db Rest × Nat :=
  let rows := (db.live.rows.filter (backfillWhere ignoreCase batch db)).map
    copied
  let inserted := insertIgnore db.history rows
  ({ db with history := inserted.1 }, inserted.2)

def inHistory (db : Db Rest) (row : Row Rest) : Bool :=
  db.history.any fun old => old.id = row.id

def backfillDeleteSql (ignoreCase : Bool) (batch : Option Nat)
    (db : Db Rest) : Db Rest × Nat :=
  let deletes := fun row =>
    backfillWhere ignoreCase batch db row && inHistory db row
  ({ db with live := db.live.retain fun row => !deletes row },
    (db.live.rows.filter deletes).length)

/-! ## From history into the live table -/

def isLive (db : Db Rest) (row : Row Rest) : Bool :=
  db.live.rows.any fun live => live.id = row.id

/-- `finished_at` is not NULL in history. -/
def finishedBefore (left right : Row Rest) : Bool :=
  left.finishedAt.getD 0 < right.finishedAt.getD 0 ||
    left.finishedAt.getD 0 = right.finishedAt.getD 0 && left.id ≤ right.id

def restores (batch : Nat) (db : Db Rest) (row : Row Rest) : Bool :=
  (first batch finishedBefore
    (db.history.filter fun old => !isLive db old)).any
      fun chosen => chosen.id = row.id

/-- `INSERT .. ON CONFLICT DO NOTHING` into the live table. -/
def insertLive (live : Live Rest) : List (Row Rest) → Live Rest × Nat
  | [] => (live, 0)
  | row :: rows =>
      let rest := insertLive (live.insert row) rows
      (rest.1, if row.id ∈ live.rows.map (fun old => old.id) then rest.2
        else rest.2 + 1)

def restoreInsertSql (batch : Nat) (db : Db Rest) : Db Rest × Nat :=
  let inserted := insertLive db.live (db.history.filter (restores batch db))
  ({ db with live := inserted.1 }, inserted.2)

def restoreDeleteSql (db : Db Rest) : Db Rest × Nat :=
  ({ db with history := db.history.filter fun old => !isLive db old },
    (db.history.filter (isLive db)).length)

/-! ## The loop -/

/-- The two statements of a batch of the given size. -/
structure Statements (Rest : Type) where
  insert : Nat → Db Rest → Db Rest × Nat
  delete : Nat → Db Rest → Db Rest × Nat

def moveTerminalRows (ignoreCase : Bool) : Statements Rest where
  insert batch := backfillHistorySql ignoreCase (some batch)
  delete batch := backfillDeleteSql ignoreCase (some batch)

def restoreTerminalRows : Statements Rest where
  insert := restoreInsertSql
  delete _ := restoreDeleteSql

inductive Stage where
  | insert
  | delete (inserted : Nat)
  | commit (inserted removed : Nat)
  | returned
  deriving DecidableEq, Repr

def Stage.hasReturned : Stage → Bool
  | .returned => true
  | _ => false

/-- A run of the loop; `committed` is what a crash leaves. -/
structure Run (Rest : Type) where
  batch : Nat
  db : Db Rest
  committed : Db Rest
  moved : Nat := 0
  stage : Stage := .insert

def Run.start (batch : Nat) (db : Db Rest) : Run Rest where
  batch := batch
  db := db
  committed := db

/-- The next statement.  With `autocommit` each statement is a transaction of
its own, else a batch is one. -/
def advance (autocommit : Bool) (sql : Statements Rest) (run : Run Rest) :
    Run Rest :=
  match run.stage with
  | .insert =>
      let (db, inserted) := sql.insert run.batch run.db
      { run with
        db := db
        committed := if autocommit then db else run.committed
        stage := .delete inserted }
  | .delete inserted =>
      let (db, removed) := sql.delete run.batch run.db
      { run with
        db := db
        committed := if autocommit then db else run.committed
        stage := .commit inserted removed }
  | .commit inserted removed =>
      { run with
        committed := run.db
        moved := run.moved + removed
        stage := if inserted ≤ 0 ∧ removed ≤ 0 then .returned else .insert }
  | .returned => run

inductive Step (autocommit : Bool) (sql : Statements Rest) :
    Run Rest → Run Rest → Prop where
  | advance (run : Run Rest) :
      Step autocommit sql run (advance autocommit sql run)
  | crash (run : Run Rest) (batch : Nat) (positive : 0 < batch) :
      Step autocommit sql run (.start batch run.committed)

/-- Statements, crashes and restarts, in any order. -/
abbrev Runs (autocommit : Bool) (sql : Statements Rest) :
    Run Rest → Run Rest → Prop :=
  Relation.ReflTransGen (Step autocommit sql)

/-- The run returns, when it is not interrupted again. -/
def Returns (autocommit : Bool) (sql : Statements Rest) (run : Run Rest) :
    Prop :=
  ∃ statements,
    ((advance autocommit sql)^[statements] run).stage.hasReturned = true

end Sqlery.History
