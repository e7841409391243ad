import Sqlery.Calendar.Gregorian
import Sqlery.Core.Digits
import Sqlery.Core.Job

/-!
# Cron expressions

The parser of cron expressions, the search for the next occurrence, and
`calculate_next_run` with its clamp to the future.  Times are microseconds
since 0001-01-01, the first day a `datetime` can hold.  Where the source raises
(an invalid expression, a year after 9999) a function here is `none`.

The events of a solar schedule come from floating-point formulas; they are a
parameter, a time for each day on which there is an event.
-/

namespace Sqlery.Scheduling

open Calendar

/-- The text of an expression. -/
abbrev Text := List Char

/-! ## Numbers and ranges -/

/-- The characters `str.strip` removes. -/
def isSpace (c : Char) : Bool :=
  let code := c.toNat
  (9 ≤ code && code ≤ 13) || (28 ≤ code && code ≤ 32) || code = 0x85 ||
    code = 0xa0 || code = 0x1680 || (0x2000 ≤ code && code ≤ 0x200a) ||
    code = 0x2028 || code = 0x2029 || code = 0x202f || code = 0x205f ||
    code = 0x3000

def strip (text : Text) : Text :=
  ((text.dropWhile isSpace).reverse.dropWhile isSpace).reverse

/-- `str.isnumeric`.  Numeric characters that are no decimal digits make an
expression invalid whatever this says of them. -/
def isNumeric (text : Text) : Bool := text ≠ [] && text.all isDecimal

/-- Digits, with single underscores between them. -/
def digits : Text → Bool → Nat → Option Nat
  | [], afterDigit, value => if afterDigit then some value else none
  | c :: rest, afterDigit, value =>
      match decimalDigit c with
      | some digit => digits rest true (10 * value + digit)
      | none =>
          if c = '_' && afterDigit then digits rest false value else none

/-- `int(text)`. -/
def int (text : Text) : Option Int :=
  match strip text with
  | '-' :: rest => (digits rest false 0).map fun value => -(value : Int)
  | '+' :: rest => (digits rest false 0).map fun value => (value : Int)
  | rest => (digits rest false 0).map fun value => (value : Int)

/-- `_try_int`. -/
def tryInt (text : Text) (maxValue minValue : Nat) : Option Nat :=
  match int text with
  | none => none
  | some result =>
      if result < 0 || result < minValue || maxValue < result then none
      else some result.toNat

/-- `list(range(start, stop, step))`; a step of zero is an error. -/
def range (start stop step : Nat) : Option (List Nat) :=
  if step = 0 then none
  else some (List.range' start ((stop - start + step - 1) / step) step)

/-! ## `_expression_to_list` -/

/-- An expression without commas and without a step of its own. -/
def plainToList (expr : Text) (maxValue minValue step : Nat) :
    Option (List Nat) :=
  if expr = ['*'] then range minValue (maxValue + 1) step
  else if isNumeric expr then
    (tryInt expr maxValue minValue).map fun value => [value]
  else if '-' ∈ expr then
    match expr.splitOn '-' with
    | [first, last] => do
        let first ← tryInt first maxValue minValue
        let last ← tryInt last maxValue minValue
        range first (last + 1) step
    | _ => none
  else none

/-- An expression without commas. -/
def itemToList (maxValue minValue : Nat) (expr : Text) : Option (List Nat) :=
  if expr ≠ ['*'] && !isNumeric expr && '/' ∈ expr then
    match expr.splitOn '/' with
    | [lhs, rhs] => do
        let step ← tryInt rhs maxValue minValue
        plainToList lhs maxValue minValue step
    | _ => none
  else plainToList expr maxValue minValue 1

/-- The values of all parts, sorted and without repetition. -/
def expressionToList (expr : Text) (maxValue minValue : Nat) :
    Option (List Nat) :=
  if ',' ∈ expr then do
    let values ← (expr.splitOn ',').mapM (itemToList maxValue minValue)
    pure ((List.range (maxValue + 1)).filter (· ∈ values.flatten))
  else itemToList maxValue minValue expr

/-! ## `parse_cron_string` -/

structure Crontab where
  minutes : List Nat
  hours : List Nat
  dayOfMonth : List Nat
  months : List Nat
  dayOfWeek : List Nat
  dayOfMonthAsterisk : Bool
  dayOfWeekAsterisk : Bool
  deriving DecidableEq, Repr

/-- The events of a solar schedule, with its offset. -/
abbrev Solar := Nat → Option Time

inductive Schedule where
  | cron (crontab : Crontab)
  | solar (events : Solar)

def macros (expression : String) : String :=
  match expression with
  | "@yearly" => "0 0 1 1 *"
  | "@annually" => "0 0 1 1 *"
  | "@monthly" => "0 0 1 * *"
  | "@weekly" => "0 0 * * 0"
  | "@daily" => "0 0 * * *"
  | "@midnight" => "0 0 * * *"
  | "@hourly" => "0 * * * *"
  | other => other

def isSolar (expression : String) : Bool :=
  "solar:".toList.isPrefixOf ((strip expression.toList).map Char.toLower)

def parseCrontab (expression : Text) : Option Crontab :=
  match expression.splitOn ' ' with
  | [minute, hour, dayMonth, month, dayWeek] => do
      let minutes ← expressionToList minute 59 0
      let hours ← expressionToList hour 23 0
      let dayOfMonth ← expressionToList dayMonth 31 1
      let months ← expressionToList month 12 1
      let dayOfWeek ← expressionToList dayWeek 6 0
      pure {
        minutes, hours, dayOfMonth, months, dayOfWeek
        dayOfMonthAsterisk := dayMonth = ['*']
        dayOfWeekAsterisk := dayWeek = ['*'] }
  | _ => none

/-- `parseSolar` is `parse_solar`. -/
def parseCronString (parseSolar : String → Option Solar)
    (expression : String) : Option Schedule :=
  if isSolar expression then (parseSolar expression).map .solar
  else (parseCrontab (macros expression).toList).map .cron

/-! ## `Crontab.next_from` -/

/-- A `datetime`, to the minute. -/
structure DateTime where
  date : Date
  hour : Nat
  minute : Nat
  deriving DecidableEq, Repr

/-- Microseconds of a minute. -/
abbrev minuteLength : Time := 60000000

def DateTime.minutes (moment : DateTime) : Nat :=
  moment.date.days * 1440 + moment.hour * 60 + moment.minute

def DateTime.time (moment : DateTime) : Time :=
  (moment.minutes : Int) * minuteLength

/-- The fields of a time; a `datetime` ends with the year 9999. -/
def DateTime.ofTime (time : Time) : Option DateTime :=
  if time < 0 then none
  else
    let minutes := (time / minuteLength).toNat
    let date := Date.ofDays (minutes / 1440)
    if date.year ≤ 9999 then
      some { date, hour := minutes % 1440 / 60, minute := minutes % 60 }
    else none

/-- From `0` for Monday to `0` for Sunday. -/
def dayOfWeekToCron (dayOfWeek : Nat) : Nat := (dayOfWeek + 1) % 7

def Crontab.matchesDay (crontab : Crontab) (date : Date) : Bool :=
  let dayOfMonthMatch : Bool := date.day ∈ crontab.dayOfMonth
  let dayOfWeekMatch : Bool :=
    dayOfWeekToCron (date.days % 7) ∈ crontab.dayOfWeek
  if crontab.dayOfWeekAsterisk then dayOfMonthMatch
  else if crontab.dayOfMonthAsterisk then dayOfWeekMatch
  else dayOfMonthMatch || dayOfWeekMatch

/-- The matching days of the anchor's year, from the anchor on. -/
def Crontab.dates (crontab : Crontab) (anchor : Date) : List Date :=
  (crontab.months.filter fun month => anchor.month ≤ month).flatMap
    fun month =>
      ((List.range' 1 (daysInMonth anchor.year month)).map fun day =>
        ({ year := anchor.year, month, day } : Date)).filter fun date =>
          !(month = anchor.month && date.day < anchor.day) &&
            crontab.matchesDay date

/-- The first moment of a day, not before the anchor. -/
def Crontab.timeOn (crontab : Crontab) (anchor : DateTime) (date : Date) :
    Option DateTime :=
  (crontab.hours.filter fun hour =>
      !(date = anchor.date && hour < anchor.hour)).findSome? fun hour =>
    (crontab.minutes.find? fun minute =>
        !(date = anchor.date && hour = anchor.hour &&
          minute < anchor.minute)).map fun minute => { date, hour, minute }

def Crontab.nextFromYear (crontab : Crontab) (anchor : DateTime) :
    Nat → Date → Option DateTime
  | 0, _ => none
  | years + 1, start =>
      match (crontab.dates start).findSome? (crontab.timeOn anchor) with
      | some moment => some moment
      | none =>
          crontab.nextFromYear anchor years
            { year := start.year + 1, month := 1, day := 1 }

def Crontab.nextFrom (crontab : Crontab) (anchor : DateTime) :
    Option DateTime :=
  crontab.nextFromYear anchor (10000 - anchor.date.year) anchor.date

/-! ## `SolarSchedule.next_from` -/

def horizonDays : Nat := 400

/-- The first event at or after the base, rounded down to the minute. -/
def solarNextFrom (events : Solar) (base : Time) : Option Time :=
  match DateTime.ofTime base with
  | none => none
  | some moment =>
      if moment.date.days < 2 then none
      else
        (List.range (horizonDays + 3)).findSome? fun i =>
          ((events (moment.date.days - 2 + i)).map fun event =>
            event / minuteLength * minuteLength).filter fun event =>
              base ≤ event

/-! ## `next_cron_occurrence` and `calculate_next_run` -/

def Schedule.nextFrom (base : Time) : Schedule → Option Time
  | .cron crontab => do
      let anchor ← DateTime.ofTime base
      let moment ← crontab.nextFrom anchor
      pure moment.time
  | .solar events => solarNextFrom events base

/-- The search starts from the next minute. -/
def nextCronOccurrence (parseSolar : String → Option Solar)
    (expression : String) (base : Time) : Option Time := do
  let schedule ← parseCronString parseSolar expression
  schedule.nextFrom (base + minuteLength)

def maxClampIterations : Nat := 2000000

/-- The loop that moves a candidate into the future. -/
def clamp (next : Time → Option Time) (now : Time) :
    Nat → Time → Option Time
  | 0, candidate => if candidate ≤ now then next now else some candidate
  | iterations + 1, candidate =>
      if candidate ≤ now then
        match next candidate with
        | some later => clamp next now iterations later
        | none => none
      else some candidate

/-- `Scheduler.calculate_next_run` with a base. -/
def calculateNextRun (parseSolar : String → Option Solar)
    (expression : String) (base now : Time) : Option Time := do
  let candidate ← nextCronOccurrence parseSolar expression base
  clamp (nextCronOccurrence parseSolar expression) now maxClampIterations
    candidate

/-! ## The values of an expression -/

theorem tryInt_bounds {text : Text} {maxValue minValue value : Nat}
    (parsed : tryInt text maxValue minValue = some value) :
    minValue ≤ value ∧ value ≤ maxValue := by
  unfold tryInt at parsed
  split at parsed
  · cases parsed
  · split at parsed
    · cases parsed
    · rename_i result _ inside
      simp only [Bool.or_eq_true, decide_eq_true_eq] at inside
      cases parsed
      omega

theorem mem_range_bounds {start stop step value : Nat} {values : List Nat}
    (made : range start stop step = some values) (member : value ∈ values) :
    start ≤ value ∧ value < stop := by
  unfold range at made
  split at made
  · cases made
  · rename_i positive
    cases made
    obtain ⟨i, inside, rfl⟩ := List.mem_range'.mp member
    have few : i * step < stop - start := by
      have := (Nat.lt_div_iff_mul_lt (Nat.pos_of_ne_zero positive)).mp inside
      omega
    have comm : step * i = i * step := Nat.mul_comm step i
    omega

section Bounds

variable {expr : Text} {maxValue minValue step value : Nat}
variable {values : List Nat}

theorem plainToList_bounds
    (parsed : plainToList expr maxValue minValue step = some values)
    (member : value ∈ values) : minValue ≤ value ∧ value ≤ maxValue := by
  unfold plainToList at parsed
  split at parsed
  · have inside := mem_range_bounds parsed member
    omega
  · split at parsed
    · obtain ⟨single, isInt, rfl⟩ := Option.map_eq_some_iff.mp parsed
      rw [List.mem_singleton] at member
      rw [member]
      exact tryInt_bounds isInt
    · split at parsed
      · split at parsed
        · obtain ⟨first, isFirst, parsed⟩ := Option.bind_eq_some_iff.mp parsed
          obtain ⟨last, isLast, parsed⟩ := Option.bind_eq_some_iff.mp parsed
          have inside := mem_range_bounds parsed member
          have lower := tryInt_bounds isFirst
          have upper := tryInt_bounds isLast
          omega
        · cases parsed
      · cases parsed

theorem itemToList_bounds
    (parsed : itemToList maxValue minValue expr = some values)
    (member : value ∈ values) : minValue ≤ value ∧ value ≤ maxValue := by
  unfold itemToList at parsed
  split at parsed
  · split at parsed
    · obtain ⟨step, _, parsed⟩ := Option.bind_eq_some_iff.mp parsed
      exact plainToList_bounds parsed member
    · cases parsed
  · exact plainToList_bounds parsed member

theorem items_bounds {items : List Text} {lists : List (List Nat)}
    (parsed : items.mapM (itemToList maxValue minValue) = some lists)
    (member : value ∈ lists.flatten) :
    minValue ≤ value ∧ value ≤ maxValue := by
  induction items generalizing lists with
  | nil =>
      rw [List.mapM_nil] at parsed
      cases parsed
      simp at member
  | cons item items ih =>
      rw [List.mapM_cons] at parsed
      obtain ⟨first, isFirst, parsed⟩ := Option.bind_eq_some_iff.mp parsed
      obtain ⟨rest, isRest, parsed⟩ := Option.bind_eq_some_iff.mp parsed
      cases parsed
      rw [List.flatten_cons, List.mem_append] at member
      rcases member with here | later
      · exact itemToList_bounds isFirst here
      · exact ih isRest later

/-- Every value lies within the bounds of its field. -/
theorem expressionToList_bounds
    (parsed : expressionToList expr maxValue minValue = some values)
    (member : value ∈ values) : minValue ≤ value ∧ value ≤ maxValue := by
  unfold expressionToList at parsed
  split at parsed
  · obtain ⟨lists, isLists, parsed⟩ := Option.bind_eq_some_iff.mp parsed
    cases parsed
    have present := (List.mem_filter.mp member).2
    exact items_bounds isLists (of_decide_eq_true present)
  · exact itemToList_bounds parsed member

end Bounds

/-- The fields hold minutes, hours, days and months. -/
structure Crontab.WellFormed (crontab : Crontab) : Prop where
  minutes : ∀ minute ∈ crontab.minutes, minute ≤ 59
  hours : ∀ hour ∈ crontab.hours, hour ≤ 23
  dayOfMonth : ∀ day ∈ crontab.dayOfMonth, 1 ≤ day ∧ day ≤ 31
  months : ∀ month ∈ crontab.months, 1 ≤ month ∧ month ≤ 12
  dayOfWeek : ∀ day ∈ crontab.dayOfWeek, day ≤ 6

/-- What the parser accepts is well formed. -/
theorem parseCrontab_wellFormed {expression : Text} {crontab : Crontab}
    (parsed : parseCrontab expression = some crontab) :
    crontab.WellFormed := by
  unfold parseCrontab at parsed
  split at parsed
  · obtain ⟨minutes, isMinutes, parsed⟩ := Option.bind_eq_some_iff.mp parsed
    obtain ⟨hours, isHours, parsed⟩ := Option.bind_eq_some_iff.mp parsed
    obtain ⟨days, isDays, parsed⟩ := Option.bind_eq_some_iff.mp parsed
    obtain ⟨months, isMonths, parsed⟩ := Option.bind_eq_some_iff.mp parsed
    obtain ⟨weekdays, isWeekdays, parsed⟩ := Option.bind_eq_some_iff.mp parsed
    cases parsed
    constructor
    · exact fun _ member => (expressionToList_bounds isMinutes member).2
    · exact fun _ member => (expressionToList_bounds isHours member).2
    · exact fun _ member => expressionToList_bounds isDays member
    · exact fun _ member => expressionToList_bounds isMonths member
    · exact fun _ member => (expressionToList_bounds isWeekdays member).2
  · cases parsed

/-! ## The next occurrence is later -/

/-- A moment is the minute its time falls in. -/
theorem DateTime.ofTime_spec {time : Time} {moment : DateTime}
    (isMoment : DateTime.ofTime time = some moment) :
    moment.date.Valid ∧ moment.hour < 24 ∧ moment.minute < 60 ∧
      time < moment.time + minuteLength := by
  unfold DateTime.ofTime at isMoment
  split at isMoment
  · cases isMoment
  · rename_i notNegative
    simp only at isMoment
    split at isMoment
    · cases isMoment
      generalize whole : (time / minuteLength).toNat = minutes
      obtain ⟨valid, days⟩ := Date.ofDays_spec (minutes / 1440)
      refine ⟨valid, by simp only; omega, by simp only; omega, ?_⟩
      have sum : minutes / 1440 * 1440 + minutes % 1440 / 60 * 60 +
          minutes % 60 = minutes := by omega
      simp only [DateTime.time, DateTime.minutes, days, sum]
      have nonneg : 0 ≤ time / minuteLength :=
        Int.ediv_nonneg (not_lt.mp notNegative) (by decide)
      have isWhole : (minutes : Int) = time / minuteLength := by
        rw [← whole]
        exact Int.toNat_of_nonneg nonneg
      rw [isWhole]
      have := Int.lt_ediv_add_one_mul_self time
        (show 0 < minuteLength by decide)
      rw [Int.add_mul, Int.one_mul] at this
      exact this
    · cases isMoment

section Occurrence

variable {crontab : Crontab} {anchor moment : DateTime} {start date : Date}

theorem Crontab.timeOn_spec (inHour : anchor.minute < 60)
    (found : crontab.timeOn anchor date = some moment) :
    moment.date = date ∧
      (date = anchor.date → anchor.minutes ≤ moment.minutes) := by
  obtain ⟨hour, isHour, atHour⟩ := List.exists_of_findSome?_eq_some found
  obtain ⟨minute, isMinute, rfl⟩ := Option.map_eq_some_iff.mp atHour
  refine ⟨rfl, ?_⟩
  intro sameDay
  have hourOk := (List.mem_filter.mp isHour).2
  have minuteOk := List.find?_some isMinute
  simp only [sameDay, decide_true, Bool.true_and, Bool.not_eq_true',
    Bool.and_eq_false_iff, decide_eq_false_iff_not, not_lt] at hourOk minuteOk
  simp only [DateTime.minutes, sameDay]
  omega

theorem Crontab.dates_spec (member : date ∈ crontab.dates start) :
    date.year = start.year ∧ (date = start ∨ start.Before date) := by
  obtain ⟨month, isMonth, inMonth⟩ := List.mem_flatMap.mp member
  have notEarlier := (List.mem_filter.mp isMonth).2
  obtain ⟨isDate, kept⟩ := List.mem_filter.mp inMonth
  obtain ⟨day, isDay, rfl⟩ := List.mem_map.mp isDate
  refine ⟨rfl, ?_⟩
  have monthLe : start.month ≤ month := of_decide_eq_true notEarlier
  rcases Nat.lt_or_ge start.month month with laterMonth | notLater
  · exact Or.inr (Or.inr ⟨rfl, Or.inl laterMonth⟩)
  · have sameMonth : month = start.month := Nat.le_antisymm notLater monthLe
    simp [sameMonth] at kept
    rcases Nat.lt_or_ge start.day day with laterDay | notLaterDay
    · exact Or.inr (Or.inr ⟨rfl, Or.inr ⟨sameMonth.symm, laterDay⟩⟩)
    · left
      have sameDay : day = start.day := Nat.le_antisymm notLaterDay kept.1
      rw [sameMonth, sameDay]

/-- A moment of a day from the anchor on does not come before the anchor. -/
theorem Crontab.minutes_le_of_timeOn (valid : anchor.date.Valid)
    (inDay : anchor.hour < 24) (inHour : anchor.minute < 60)
    (notBefore : date = anchor.date ∨ anchor.date.Before date)
    (found : crontab.timeOn anchor date = some moment) :
    anchor.minutes ≤ moment.minutes := by
  obtain ⟨isDate, onStart⟩ := crontab.timeOn_spec inHour found
  rcases notBefore with same | before
  · exact onStart same
  · have laterDay := before.days_lt valid
    simp only [DateTime.minutes, isDate]
    omega

theorem Crontab.nextFromYear_minutes_le (valid : anchor.date.Valid)
    (inDay : anchor.hour < 24) (inHour : anchor.minute < 60) {years : Nat}
    (notBefore : start = anchor.date ∨ anchor.date.year < start.year)
    (found : crontab.nextFromYear anchor years start = some moment) :
    anchor.minutes ≤ moment.minutes := by
  induction years generalizing start with
  | zero => cases found
  | succ years ih =>
      simp only [Crontab.nextFromYear] at found
      split at found
      · rename_i first isFirst
        cases found
        obtain ⟨date, member, onDate⟩ :=
          List.exists_of_findSome?_eq_some isFirst
        obtain ⟨sameYear, fromStart⟩ := crontab.dates_spec member
        apply crontab.minutes_le_of_timeOn valid inDay inHour _ onDate
        rcases notBefore with isAnchor | laterYear
        · rw [← isAnchor]
          exact fromStart
        · right
          left
          omega
      · apply ih _ found
        right
        rcases notBefore with isAnchor | laterYear
        · rw [isAnchor]
          exact Nat.lt_succ_self _
        · exact laterYear.trans (Nat.lt_succ_self _)

end Occurrence

theorem solarNextFrom_le {events : Solar} {base time : Time}
    (found : solarNextFrom events base = some time) : base ≤ time := by
  unfold solarNextFrom at found
  split at found
  · cases found
  · split at found
    · cases found
    · obtain ⟨i, _, isEvent⟩ := List.exists_of_findSome?_eq_some found
      obtain ⟨_, notBefore⟩ := Option.filter_eq_some_iff.mp isEvent
      exact of_decide_eq_true notBefore

/-- What a schedule gives lies after the minute before the base. -/
theorem Schedule.nextFrom_later {schedule : Schedule} {base time : Time}
    (found : schedule.nextFrom base = some time) :
    base < time + minuteLength := by
  cases schedule with
  | cron crontab =>
      obtain ⟨anchor, isAnchor, found⟩ := Option.bind_eq_some_iff.mp found
      obtain ⟨moment, isMoment, found⟩ := Option.bind_eq_some_iff.mp found
      cases found
      obtain ⟨valid, inDay, inHour, within⟩ := DateTime.ofTime_spec isAnchor
      have notBefore := crontab.nextFromYear_minutes_le valid inDay inHour
        (Or.inl rfl) isMoment
      have scaled : anchor.time ≤ moment.time :=
        Int.mul_le_mul_of_nonneg_right (Int.ofNat_le.mpr notBefore)
          (by decide)
      exact within.trans_le (Int.add_le_add_right scaled _)
  | solar events =>
      have notBefore := solarNextFrom_le found
      exact notBefore.trans_lt (Int.lt_add_of_pos_right _ (by decide))

theorem nextCronOccurrence_later {parseSolar : String → Option Solar}
    {expression : String} {base time : Time}
    (found : nextCronOccurrence parseSolar expression base = some time) :
    base < time := by
  obtain ⟨schedule, _, found⟩ := Option.bind_eq_some_iff.mp found
  exact Int.lt_of_add_lt_add_right (schedule.nextFrom_later found)

theorem clamp_later {next : Time → Option Time}
    (later : ∀ base time, next base = some time → base < time)
    {now base candidate time : Time} {iterations : Nat}
    (after : base < candidate)
    (found : clamp next now iterations candidate = some time) :
    base < time := by
  induction iterations generalizing candidate with
  | zero =>
      simp only [clamp] at found
      split at found
      · rename_i past
        exact (after.trans_le past).trans (later now time found)
      · cases found
        exact after
  | succ iterations ih =>
      simp only [clamp] at found
      split at found
      · split at found
        · rename_i second isSecond
          exact ih (after.trans (later _ _ isSecond)) found
        · cases found
      · cases found
        exact after

/-- The next run is later than the time it is computed from. -/
theorem calculateNextRun_later {parseSolar : String → Option Solar}
    {expression : String} {base now time : Time}
    (found : calculateNextRun parseSolar expression base now = some time) :
    base < time := by
  obtain ⟨candidate, isCandidate, found⟩ := Option.bind_eq_some_iff.mp found
  exact clamp_later (fun _ _ => nextCronOccurrence_later)
    (nextCronOccurrence_later isCandidate) found

end Sqlery.Scheduling
