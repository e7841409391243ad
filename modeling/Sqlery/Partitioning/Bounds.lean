import Mathlib.Data.List.Infix
import Sqlery.Partitioning.LivePartitions

/-!
# The bounds of partitions

`_parse_upper_bound` on what PostgreSQL prints for the bound of a partition.
The timestamps in it are printed and read by others: a text that Python reads
is the time that PostgreSQL printed, and there are texts that it does not read.
-/

namespace Sqlery.Partitioning

/-! ## Bounds -/

/-- An end of the range of a partition. -/
inductive Edge where
  | minvalue
  | maxvalue
  | infinity (negative : Bool)
  | time (time : Int)
  deriving DecidableEq, Repr

inductive Bound where
  | default
  | range (lower upper : Edge)
  deriving DecidableEq, Repr

/-! ## Timestamps -/

/-- A `datetime` that is parsed, with the `utcoffset` of its `tzinfo`. -/
structure Parsed where
  wall : Int
  offset : Option Int
  deriving DecidableEq, Repr

/-- The time, that of UTC where there is no `tzinfo`. -/
def Parsed.instant (stamp : Parsed) : Int :=
  stamp.wall - stamp.offset.getD 0

/-- `text[:-3] + "+00:00"`, for a text that ends in `"+00"`. -/
def normalised (text : Text) : Text :=
  if "+00".toList <:+ text then
    text.take (text.length - 3) ++ "+00:00".toList
  else text

def infinityText (negative : Bool) : Text :=
  if negative then "-infinity".toList else "infinity".toList

/-- Neither a quote nor a parenthesis. -/
def plain (letter : Char) : Bool := letter ≠ '\'' && letter ≠ '('

/-- The time zone of a session of PostgreSQL, how timestamps are printed in it,
and how Python reads them. -/
structure Datetimes where
  zone : Calendar.Zone
  print : Int → Text
  strptime : Text → Text → Option Parsed
  fromisoformat : Text → Option Parsed
  print_nonempty (time : Int) : print time ≠ []
  print_plain (time : Int) : (print time).all plain = true
  strptime_print {time : Int} {format : Text} {stamp : Parsed} :
    strptime (print time) format = some stamp → stamp.instant = time
  fromisoformat_print {time : Int} {stamp : Parsed} :
    fromisoformat (normalised (print time)) = some stamp → stamp.instant = time
  strptime_infinity (negative : Bool) (format : Text) :
    strptime (infinityText negative) format = none
  fromisoformat_infinity (negative : Bool) :
    fromisoformat (infinityText negative) = none

def formats : List Text :=
  ["%Y-%m-%d %H:%M:%S%z".toList, "%Y-%m-%d %H:%M:%S.%f%z".toList,
    "%Y-%m-%dT%H:%M:%S%z".toList]

variable (datetimes : Datetimes)

/-- `_parse_ts`. -/
def Datetimes.parseTs (text : Text) : Option Int :=
  match formats.findSome? (datetimes.strptime text) with
  | some stamp => some stamp.instant
  | none => (datetimes.fromisoformat (normalised text)).map Parsed.instant

/-! ## The expression of a bound -/

def Datetimes.edgeText : Edge → Text
  | .minvalue => "MINVALUE".toList
  | .maxvalue => "MAXVALUE".toList
  | .infinity negative => '\'' :: infinityText negative ++ ['\'']
  | .time time => '\'' :: datetimes.print time ++ ['\'']

/-- `pg_get_expr(relpartbound, ..)`. -/
def Datetimes.getExpr : Bound → Text
  | .default => "DEFAULT".toList
  | .range lower upper =>
      "FOR VALUES FROM (".toList ++ (datetimes.edgeText lower ++
        (") TO (".toList ++ (datetimes.edgeText upper ++ [')'])))

/-- The group of `TO \('([^']+)'\)`, matched at the head of the text. -/
def groupAt (text : Text) : Option Text :=
  if "TO ('".toList <+: text then
    let rest := text.drop 5
    let group := rest.takeWhile (· ≠ '\'')
    if group ≠ [] ∧ "')".toList <+: rest.dropWhile (· ≠ '\'') then some group
    else none
  else none

/-- The group of the first match. -/
def searchTo : Text → Option Text
  | [] => none
  | letter :: rest =>
      match groupAt (letter :: rest) with
      | some group => some group
      | none => searchTo rest

/-- `_parse_upper_bound`. -/
def Datetimes.parseUpperBound (expr : Text) : Option Int :=
  if expr = [] ∨ "DEFAULT".toList <:+: expr then none
  else match searchTo expr with
    | some group => datetimes.parseTs group
    | none => none

/-! ## The search -/

section

variable {letter : Char} {text rest : Text}

theorem searchTo_skip (other : letter ≠ 'T') :
    searchTo (letter :: rest) = searchTo rest := by
  have unmatched : groupAt (letter :: rest) = none := by
    simp [groupAt, Ne.symm other]
  simp [searchTo, unmatched]

theorem searchTo_append (other : text.all (· ≠ 'T') = true) :
    searchTo (text ++ rest) = searchTo rest := by
  induction text with
  | nil => rfl
  | cons letter text ih =>
      obtain ⟨different, others⟩ := by simpa using other
      rw [List.cons_append, searchTo_skip different]
      exact ih (by simpa using others)

/-- A match starts with four letters before its quote, the last of which is a
parenthesis. -/
theorem not_prefix_of_plain
    (isPlain : text.all plain = true) :
    ¬"TO ('".toList <+: text ++ '\'' :: rest := by
  rintro ⟨tail, whole⟩
  rcases text with _ | ⟨first, _ | ⟨second, _ | ⟨third, _ | ⟨fourth, more⟩⟩⟩⟩
  · simp at whole
  · simp at whole
  · simp at whole
  · simp at whole
  · have fourthPlain : fourth ≠ '(' := by
      simp only [List.all_cons, Bool.and_eq_true, plain, decide_eq_true_eq]
        at isPlain
      exact isPlain.2.2.2.1.2
    simp at whole
    exact fourthPlain whole.2.2.2.1.symm

theorem searchTo_plain
    (isPlain : text.all plain = true) :
    searchTo (text ++ '\'' :: rest) = searchTo ('\'' :: rest) := by
  induction text with
  | nil => rfl
  | cons letter text ih =>
      have unmatched : groupAt (letter :: text ++ '\'' :: rest) = none := by
        simp only [groupAt, if_neg (not_prefix_of_plain isPlain)]
      have tailPlain : text.all plain = true := by
        rw [List.all_cons, Bool.and_eq_true] at isPlain
        exact isPlain.2
      rw [List.cons_append] at unmatched ⊢
      rw [searchTo, unmatched]
      exact ih tailPlain

theorem searchTo_quoted
    (isPlain : text.all plain = true) :
    searchTo ('\'' :: text ++ '\'' :: rest) = searchTo rest := by
  rw [List.cons_append, searchTo_skip (by decide), searchTo_plain isPlain,
    searchTo_skip (by decide)]

theorem searchTo_groupAt {group : Text} (found : groupAt text = some group) :
    searchTo text = some group := by
  cases text with
  | nil => cases found
  | cons letter text => simp only [searchTo, found]

theorem groupAt_quoted (nonempty : text ≠ [])
    (isPlain : text.all plain = true) :
    groupAt ("TO ('".toList ++ (text ++ "')".toList)) = some text := by
  have unquoted : ∀ letter ∈ text, decide (letter ≠ '\'') = true := by
    intro letter member
    have isPlain := List.all_eq_true.mp isPlain letter member
    rw [plain, Bool.and_eq_true] at isPlain
    exact isPlain.1
  have group : (text ++ "')".toList).takeWhile (· ≠ '\'') = text := by
    rw [List.takeWhile_append_of_pos]
    · simp
    · intro letter member
      exact unquoted letter member
  have following :
      (text ++ "')".toList).dropWhile (· ≠ '\'') = "')".toList := by
    rw [List.dropWhile_append_of_pos]
    · simp
    · intro letter member
      exact unquoted letter member
  have start : ("TO ('".toList ++ (text ++ "')".toList)).drop 5 =
      text ++ "')".toList := rfl
  unfold groupAt
  rw [if_pos (List.prefix_append _ _)]
  simp only [start, group, following]
  exact if_pos ⟨nonempty, List.prefix_rfl⟩

end

section

variable {datetimes} {text : Text}

theorem infinityText_plain (negative : Bool) :
    (infinityText negative).all plain = true := by
  cases negative <;> decide

theorem edgeText_infinity (negative : Bool) :
    datetimes.edgeText (.infinity negative) =
      '\'' :: infinityText negative ++ ['\''] := rfl

theorem edgeText_time (time : Int) :
    datetimes.edgeText (.time time) = '\'' :: datetimes.print time ++ ['\''] :=
  rfl

theorem searchTo_literal
    (isPlain : text.all plain = true) (rest : Text) :
    searchTo ('\'' :: text ++ ['\''] ++ rest) = searchTo rest := by
  rw [List.append_assoc]
  exact searchTo_quoted isPlain

theorem searchTo_edge (edge : Edge) (rest : Text) :
    searchTo (datetimes.edgeText edge ++ rest) = searchTo rest := by
  cases edge with
  | minvalue =>
      have other : "MINVALUE".toList.all (· ≠ 'T') = true := by decide
      exact searchTo_append other
  | maxvalue =>
      have other : "MAXVALUE".toList.all (· ≠ 'T') = true := by decide
      exact searchTo_append other
  | infinity negative =>
      rw [edgeText_infinity]
      exact searchTo_literal (infinityText_plain negative) rest
  | time time =>
      rw [edgeText_time]
      exact searchTo_literal (datetimes.print_plain time) rest

/-- The search comes to the upper end. -/
theorem searchTo_getExpr (lower upper : Edge) :
    searchTo (datetimes.getExpr (.range lower upper)) =
      searchTo ("TO (".toList ++ (datetimes.edgeText upper ++ [')'])) := by
  have start : "FOR VALUES FROM (".toList.all (· ≠ 'T') = true := by decide
  have between : ") ".toList.all (· ≠ 'T') = true := by decide
  have parted : ") TO (".toList = ") ".toList ++ "TO (".toList := by decide
  have whole : datetimes.getExpr (.range lower upper) =
      "FOR VALUES FROM (".toList ++ (datetimes.edgeText lower ++
        (") TO (".toList ++ (datetimes.edgeText upper ++ [')']))) := rfl
  rw [whole, searchTo_append start, searchTo_edge, parted, List.append_assoc]
  exact searchTo_append between

/-- The literal at the upper end is what is found. -/
theorem searchTo_upper (nonempty : text ≠ [])
    (isPlain : text.all plain = true) :
    searchTo ("TO (".toList ++ ('\'' :: text ++ ['\''] ++ [')'])) =
      some text := by
  have parted : "TO ('".toList = "TO (".toList ++ ['\''] := by decide
  have closing : "')".toList = ['\'', ')'] := by decide
  have same : "TO (".toList ++ ('\'' :: text ++ ['\''] ++ [')']) =
      "TO ('".toList ++ (text ++ "')".toList) := by
    rw [parted, closing]
    simp only [List.append_assoc, List.cons_append, List.nil_append]
  rw [same]
  exact searchTo_groupAt (groupAt_quoted nonempty isPlain)

/-- What is read of a time as it is printed is that time. -/
theorem parseTs_print {time upper : Int}
    (read : datetimes.parseTs (datetimes.print time) = some upper) :
    upper = time := by
  unfold Datetimes.parseTs at read
  cases found : formats.findSome?
    (datetimes.strptime (datetimes.print time)) with
  | some stamp =>
      rw [found] at read
      obtain ⟨format, -, parsed⟩ := List.exists_of_findSome?_eq_some found
      have right := datetimes.strptime_print parsed
      simp only [Option.some.injEq] at read
      omega
  | none =>
      rw [found] at read
      obtain ⟨stamp, parsed, instant⟩ := Option.map_eq_some_iff.mp read
      have right := datetimes.fromisoformat_print parsed
      omega

theorem parseTs_infinity (negative : Bool) :
    datetimes.parseTs (infinityText negative) = none := by
  have same : normalised (infinityText negative) = infinityText negative := by
    cases negative <;> decide
  have unread : formats.findSome?
      (datetimes.strptime (infinityText negative)) = none := by
    rw [List.findSome?_eq_none_iff]
    intro format _
    exact datetimes.strptime_infinity negative format
  rw [Datetimes.parseTs, unread, same, datetimes.fromisoformat_infinity]
  rfl

/-- The DEFAULT partition has no upper bound to read. -/
theorem parseUpperBound_default :
    datetimes.parseUpperBound (datetimes.getExpr .default) = none :=
  if_pos (.inr List.infix_rfl)

theorem searchTo_of_parse {expr : Text} {upper : Int}
    (read : datetimes.parseUpperBound expr = some upper) :
    ∃ group, searchTo expr = some group ∧
      datetimes.parseTs group = some upper := by
  unfold Datetimes.parseUpperBound at read
  split at read
  · cases read
  · cases found : searchTo expr with
    | none =>
        rw [found] at read
        cases read
    | some group =>
        rw [found] at read
        exact ⟨group, rfl, read⟩

/-- An upper bound that is read is that of the partition. -/
theorem parseUpperBound_getExpr {bound : Bound} {upper : Int}
    (read : datetimes.parseUpperBound (datetimes.getExpr bound) = some upper) :
    ∃ lower, bound = .range lower (.time upper) := by
  cases bound with
  | default =>
      rw [parseUpperBound_default] at read
      cases read
  | range lower edge =>
      obtain ⟨group, found, parsed⟩ := searchTo_of_parse read
      rw [searchTo_getExpr] at found
      cases edge with
      | minvalue =>
          have unmatched : searchTo ("TO (".toList ++
              ("MINVALUE".toList ++ [')'])) = none := by
            decide
          cases unmatched.symm.trans found
      | maxvalue =>
          have unmatched : searchTo ("TO (".toList ++
              ("MAXVALUE".toList ++ [')'])) = none := by
            decide
          cases unmatched.symm.trans found
      | infinity negative =>
          have nonempty : infinityText negative ≠ [] := by
            cases negative <;> decide
          have literal := searchTo_upper nonempty (infinityText_plain negative)
          obtain rfl : infinityText negative = group :=
            Option.some.inj (literal.symm.trans found)
          rw [parseTs_infinity] at parsed
          cases parsed
      | time time =>
          have literal := searchTo_upper (datetimes.print_nonempty time)
            (datetimes.print_plain time)
          obtain rfl : datetimes.print time = group :=
            Option.some.inj (literal.symm.trans found)
          obtain rfl := parseTs_print parsed
          exact ⟨lower, rfl⟩

end

end Sqlery.Partitioning
