import Mathlib.Data.List.Sort
import Sqlery.Calendar.Gregorian
import Sqlery.Calendar.Zone

/-!
# Live partitions

`ensure_live_partitions`: the walk that premakes the partitions of the live
table.  It starts at the bucket that holds now, jumps over every range that
exists and clips a new one to the next.  The partitions get their names from
their start, to the day or to the minute, and `CREATE TABLE IF NOT EXISTS`
creates nothing where a name is taken.

Times are microseconds since 0001-01-01 UTC.  What the session selects becomes
a datetime of its time zone, and a bound that is parsed from the catalog one of
a fixed offset; the walk adds and compares these datetimes.
-/

namespace Sqlery.Partitioning

open Calendar

abbrev Text := List Char

local instance lawfulName : LawfulBEq Text := inferInstance

def minute : Int := 60 * 1000000

def hour : Int := 60 * minute

def day : Int := 24 * hour

/-- 1970-01-01. -/
def epoch : Int := 719162 * day

/-! ## Ranges and the catalog -/

structure Range where
  lower : Int
  upper : Int
  deriving DecidableEq, Repr

def Range.holds (range : Range) (time : Int) : Bool :=
  range.lower ≤ time && time < range.upper

/-- The ranges have no instant in common. -/
def Range.apart (first second : Range) : Bool :=
  first.upper ≤ second.lower || second.upper ≤ first.lower

/-- A partition for a range of `created_at`. -/
structure Partition where
  name : Text
  range : Range
  proper : range.lower < range.upper
  deriving DecidableEq

/-- The partitions of the live table, the names of the other relations of the
schema and the times in the rows of the DEFAULT partition. -/
structure Catalog where
  partitions : List Partition := []
  others : List Text := []
  defaultRows : List Int := []

def Catalog.names (catalog : Catalog) : List Text :=
  catalog.partitions.map (·.name) ++ catalog.others

/-- The datetimes of the bounds of a range. -/
structure Span where
  lower : Stamp
  upper : Stamp
  deriving DecidableEq, Repr

/-- `_list_partition_ranges`. -/
def listPartitionRanges (zone : Zone) (catalog : Catalog) : List Span :=
  catalog.partitions.map fun partition =>
    { lower := .parsed zone partition.range.lower
      upper := .parsed zone partition.range.upper }

/-- What becomes of a `CREATE TABLE IF NOT EXISTS … PARTITION OF`. -/
inductive Creation where
  | created (catalog : Catalog)
  /-- The name is taken: nothing is created. -/
  | skipped
  /-- Rows of the DEFAULT partition lie in the range. -/
  | conflict
  /-- The bounds are not a range, or overlap a partition. -/
  | refused

def createPartition (catalog : Catalog) (name : Text) (range : Range) :
    Creation :=
  if name ∈ catalog.names then .skipped
  else if proper : range.lower < range.upper then
    if catalog.partitions.any fun other => !range.apart other.range then
      .refused
    else if catalog.defaultRows.any range.holds then .conflict
    else .created
      { catalog with partitions :=
        catalog.partitions ++ [⟨name, range, proper⟩] }
  else .refused

/-! ## The settings -/

/-- The arguments, intervals as they are parsed. -/
structure Settings where
  table : Text
  interval : Option Int := some hour
  premake : Int := 7
  lookahead : Option Int := some day

def Settings.width (settings : Settings) : Int :=
  match settings.interval with
  | some width => if width < minute then hour else width
  | none => hour

def Settings.ahead (settings : Settings) : Int :=
  max (settings.width * max settings.premake 1) (settings.lookahead.getD day)

/-- The start of the current bucket; `dateTrunc` is the midnight of the
session's time zone. -/
def Settings.bucketStart (settings : Settings) (dateTrunc : Int → Int)
    (now : Int) : Int :=
  if day ≤ settings.width && settings.width % day = 0 then dateTrunc now
  else epoch + (now - epoch) / settings.width * settings.width

def twoDigits (value : Nat) : Text :=
  [(value / 10).digitChar, (value % 10).digitChar]

/-- `"%Y%m%d_%H%M"`, or `"%Y%m%d"` for widths of a day or more. -/
def suffix (width time : Int) : Text :=
  let date := Date.ofDays (time / day).toNat
  let ofDay := (time % day / minute).toNat
  Nat.toDigits 10 date.year ++ twoDigits date.month ++ twoDigits date.day ++
    if width < day then
      '_' :: twoDigits (ofDay / 60) ++ twoDigits (ofDay % 60)
    else []

def Settings.nameOf (settings : Settings) (time : Int) : Text :=
  settings.table ++ '_' :: suffix settings.width time

/-! ## The walk -/

structure Walk where
  catalog : Catalog
  existing : List Span
  cursor : Stamp
  created : Nat := 0
  /-- The partitions that a warning was logged for. -/
  conflicts : List Text := []

section Datetimes

variable (zone : Zone)

/-- `<` of pairs. -/
def Span.before (first second : Span) : Bool :=
  if first.lower.same zone second.lower then
    !first.upper.same zone second.upper &&
      first.upper.before zone second.upper
  else first.lower.before zone second.lower

def sorted (spans : List Span) : List Span :=
  spans.insertionSort fun first second => !second.before zone first

/-- The upper bound of a range that holds the cursor. -/
def covering (existing : List Span) (cursor : Stamp) : Option Stamp :=
  (existing.find? fun span => span.lower.atMost zone cursor &&
    cursor.before zone span.upper).map (·.upper)

def minimum : List Stamp → Option Stamp
  | [] => none
  | first :: rest => some (rest.foldl (fun least next =>
      if next.before zone least then next else least) first)

/-- The upper bound of a new range: the width, clipped to the next range. -/
def clipped (existing : List Span) (width : Int) (cursor : Stamp) : Stamp :=
  match minimum zone
      ((existing.map (·.lower)).filter (cursor.before zone ·)) with
  | some following =>
      if following.before zone (cursor.plus width) then following
      else cursor.plus width
  | none => cursor.plus width

/-- A round of the loop; `none` where it raises. -/
def Settings.round (settings : Settings) (walk : Walk) : Option Walk :=
  match covering zone walk.existing walk.cursor with
  | some upper => some { walk with cursor := upper }
  | none =>
      let upper := clipped zone walk.existing settings.width walk.cursor
      let span : Span := ⟨walk.cursor, upper⟩
      let range : Range := ⟨walk.cursor.instant zone, upper.instant zone⟩
      let name := settings.nameOf (walk.cursor.instant zone)
      let next := { walk with
        existing := sorted zone (walk.existing ++ [span])
        cursor := upper }
      match createPartition walk.catalog name range with
      | .created catalog =>
          some { next with catalog, created := walk.created + 1 }
      | .skipped => some { next with created := walk.created + 1 }
      | .conflict => some { next with conflicts := walk.conflicts ++ [name] }
      | .refused => none

def Settings.walk (settings : Settings) (stop : Stamp) :
    Nat → Walk → Option Walk
  | 0, walk => some walk
  | rounds + 1, walk =>
      if stop.atMost zone walk.cursor then some walk
      else match settings.round zone walk with
        | some next => settings.walk stop rounds next
        | none => none

def maxRounds : Nat := 10000

def Settings.begin (settings : Settings) (dateTrunc : Int → Int)
    (now : Int) (catalog : Catalog) : Walk where
  catalog := catalog
  existing := sorted zone (listPartitionRanges zone catalog)
  cursor := .load zone (settings.bucketStart dateTrunc now)

/-- `now + ahead`. -/
def Settings.stop (settings : Settings) (now : Int) : Stamp :=
  (Stamp.load zone now).plus settings.ahead

/-- The loop of `ensure_live_partitions`. -/
def Settings.walkFrom (settings : Settings) (dateTrunc : Int → Int)
    (now : Int) (catalog : Catalog) : Option Walk :=
  settings.walk zone (settings.stop zone now) maxRounds
    (settings.begin zone dateTrunc now catalog)

/-- `ensure_live_partitions`: what it leaves and the number it returns. -/
def ensureLivePartitions (settings : Settings) (dateTrunc : Int → Int)
    (lockAcquired : Bool) (now : Int) (catalog : Catalog) :
    Option (Catalog × Nat) :=
  if lockAcquired then
    (settings.walkFrom zone dateTrunc now catalog).map fun walk =>
      (walk.catalog, walk.created)
  else some (catalog, 0)

end Datetimes

end Sqlery.Partitioning
