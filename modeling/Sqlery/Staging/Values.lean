import Mathlib.Algebra.Group.Int.Defs
import Sqlery.Core.Job

/-!
# Values on their way into a row

JSON values, the Python values a statement gets as its parameters, the cells of
a row, and the `INSERT` of one row: every column takes the value it is given,
its default or `NULL`.
-/

namespace Sqlery.Staging

/-- A JSON value.  A number is a float when it is written as one. -/
inductive Json where
  | null
  | bool (value : Bool)
  | int (value : Int)
  | real (value : Rat)
  | str (value : String)
  | arr (items : List Json)
  | obj (fields : List (String × Json))

namespace Json

/-- Python's truth of a value. -/
def truthy : Json → Bool
  | .null => false
  | .bool value => value
  | .int value => value ≠ 0
  | .real value => value ≠ 0
  | .str value => value ≠ ""
  | .arr items => !items.isEmpty
  | .obj fields => !fields.isEmpty

def ofOption {α : Type} (encode : α → Json) : Option α → Json
  | none => .null
  | some value => encode value

end Json

/-- `fields.get(key, default)`. -/
def field (fields : List (String × Json)) (key : String) (default : Json) :
    Json :=
  (fields.lookup key).getD default

/-- A Python value.  `dumped` is the text that `json.dumps` makes of a value,
`data` a dict or a list that nobody has dumped. -/
inductive Value where
  | none
  | bool (value : Bool)
  | int (value : Int)
  | real (value : Rat)
  | text (value : String)
  | time (value : Time)
  | data (value : Json)
  | dumped (value : Json)

namespace Value

/-- What `json.loads` makes of a value. -/
def ofJson : Json → Value
  | .null => .none
  | .bool value => .bool value
  | .int value => .int value
  | .real value => .real value
  | .str value => .text value
  | value => .data value

/-- `json.dumps(value) if value is not None else None`. -/
def dumpsUnlessNone : Json → Value
  | .null => .none
  | value => .dumped value

end Value

/-! ## Columns -/

/-- The `udt_name` of a column. -/
inductive Udt where
  | int2 | int4 | int8 | numeric | float4 | float8
  | bool
  | text | varchar | bpchar
  | timestamptz | timestamp
  | json | jsonb
  | uuid
  deriving DecidableEq, Repr

def Udt.isJson : Udt → Bool
  | .json => true
  | .jsonb => true
  | _ => false

inductive Cell where
  | null
  | bool (value : Bool)
  | int (value : Int)
  | real (value : Rat)
  | text (value : String)
  | time (value : Time)
  | json (value : Json)

/-- `NULL` and the JSON value `null` are both `None` to the code that reads
the row. -/
def Cell.asRead : Cell → Cell
  | .json .null => .null
  | cell => cell

/-- The default of a column in the database. -/
inductive DbDefault where
  | constant (cell : Cell)
  | now

structure Column where
  name : String
  udt : Udt
  limit : Option Nat := none
  notNull : Bool := false
  default : Option DbDefault := none

namespace Column

/-- The integers a type has room for. -/
def inRange : Udt → Int → Bool
  | .int2, value => -2 ^ 15 ≤ value && value < 2 ^ 15
  | .int4, value => -2 ^ 31 ≤ value && value < 2 ^ 31
  | .int8, value => -2 ^ 63 ≤ value && value < 2 ^ 63
  | _, _ => true

/-- The cell a parameter becomes; `none` when the database refuses it. -/
def accept (column : Column) : Value → Option Cell
  | .none => some .null
  | .bool value => if column.udt = .bool then some (.bool value) else none
  | .int value =>
      match column.udt with
      | .int2 | .int4 | .int8 =>
          if inRange column.udt value then some (.int value) else none
      | .numeric | .float4 | .float8 => some (.real value)
      | _ => none
  | .real value =>
      match column.udt with
      | .numeric | .float4 | .float8 => some (.real value)
      | _ => none
  | .text value =>
      match column.udt with
      | .text | .varchar | .bpchar =>
          if column.limit.all (value.length ≤ ·) then some (.text value)
          else none
      | _ => none
  | .time value =>
      match column.udt with
      | .timestamptz | .timestamp => some (.time value)
      | _ => none
  | .data _ => none
  | .dumped value => if column.udt.isJson then some (.json value) else none

end Column

/-! ## `INSERT` -/

/-- What an `INSERT` says of a column. -/
inductive Part where
  | param (value : Value)
  | now

abbrev Row := List (String × Cell)

def Row.cell (row : Row) (name : String) : Cell := (row.lookup name).getD .null

def Row.asRead (row : Row) : Row :=
  row.map fun entry => (entry.1, entry.2.asRead)

namespace Column

/-- The cell of a column before it is checked. -/
def given (column : Column) (now : Time) : Option Part → Option Cell
  | some (.param value) => column.accept value
  | some .now => column.accept (.time now)
  | none =>
      match column.default with
      | some (.constant cell) => some cell
      | some .now => some (.time now)
      | none => some .null

/-- `NOT NULL`. -/
def admits (column : Column) : Cell → Bool
  | .null => !column.notNull
  | _ => true

def fill (column : Column) (now : Time) (part : Option Part) : Option Cell :=
  (column.given now part).filter column.admits

end Column

/-- `INSERT INTO table (..) VALUES (..)`. -/
def insertRow (columns : List Column) (now : Time)
    (parts : List (String × Part)) : Option Row :=
  if parts.all fun part => columns.any fun column => column.name = part.1 then
    columns.mapM fun column =>
      (column.fill now (parts.lookup column.name)).map fun cell =>
        (column.name, cell)
  else none

/-- Rows whose columns read the same read the same. -/
theorem insertRow_asRead {columns : List Column} {now : Time}
    {left right : List (String × Part)}
    (known : ∀ part ∈ left, ∃ column ∈ columns, column.name = part.1)
    (knownRight : ∀ part ∈ right, ∃ column ∈ columns, column.name = part.1)
    (same : ∀ column ∈ columns,
      (column.fill now (left.lookup column.name)).map Cell.asRead =
        (column.fill now (right.lookup column.name)).map Cell.asRead) :
    (insertRow columns now left).map Row.asRead =
      (insertRow columns now right).map Row.asRead := by
  have isKnown : ∀ parts : List (String × Part),
      (∀ part ∈ parts, ∃ column ∈ columns, column.name = part.1) →
      (parts.all fun part => columns.any fun column =>
        column.name = part.1) = true := by
    intro parts known
    rw [List.all_eq_true]
    intro part member
    obtain ⟨column, isColumn, named⟩ := known part member
    rw [List.any_eq_true]
    exact ⟨column, isColumn, by simpa using named⟩
  unfold insertRow
  rw [if_pos (isKnown left known), if_pos (isKnown right knownRight)]
  clear known knownRight isKnown
  induction columns with
  | nil => rfl
  | cons column columns ih =>
      have rest := ih fun other member =>
        same other (List.mem_cons_of_mem _ member)
      have here := same column List.mem_cons_self
      revert here rest
      simp only [List.mapM_cons]
      generalize columns.mapM (fun column : Column =>
        (column.fill now (left.lookup column.name)).map fun cell =>
          (column.name, cell)) = leftRest
      generalize columns.mapM (fun column : Column =>
        (column.fill now (right.lookup column.name)).map fun cell =>
          (column.name, cell)) = rightRest
      generalize column.fill now (left.lookup column.name) = leftCell
      generalize column.fill now (right.lookup column.name) = rightCell
      intro rest here
      cases leftCell <;> cases rightCell <;> cases leftRest <;>
        cases rightRest <;> simp_all [Row.asRead]

end Sqlery.Staging
