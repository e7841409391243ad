import Mathlib.Order.Bounds.Basic
import Mathlib.Data.Int.LeastGreatest
import Sqlery.Scheduling.Cron

/-!
# The next run is the least occurrence

A moment occurs when all the fields of the crontab match it.  The search of
`next_from` finds the least one, `next_cron_occurrence` the least one after its
base, and `calculate_next_run` the least one after its base and after now.
-/

namespace Sqlery.Scheduling

open Calendar

/-! ## The values of a field are sorted -/

section Sorted

variable {expr : Text} {maxValue minValue step : Nat} {values : List Nat}

theorem range_sorted {start stop : Nat}
    (made : range start stop step = some values) :
    values.Pairwise (· < ·) := by
  unfold range at made
  split at made
  · cases made
  · rename_i positive
    cases made
    exact List.pairwise_lt_range' step (Nat.pos_of_ne_zero positive)

theorem plainToList_sorted
    (parsed : plainToList expr maxValue minValue step = some values) :
    values.Pairwise (· < ·) := by
  unfold plainToList at parsed
  split at parsed
  · exact range_sorted parsed
  · split at parsed
    · obtain ⟨single, _, rfl⟩ := Option.map_eq_some_iff.mp parsed
      exact List.pairwise_singleton _ _
    · split at parsed
      · split at parsed
        · obtain ⟨first, _, parsed⟩ := Option.bind_eq_some_iff.mp parsed
          obtain ⟨last, _, parsed⟩ := Option.bind_eq_some_iff.mp parsed
          exact range_sorted parsed
        · cases parsed
      · cases parsed

theorem itemToList_sorted
    (parsed : itemToList maxValue minValue expr = some values) :
    values.Pairwise (· < ·) := by
  unfold itemToList at parsed
  split at parsed
  · split at parsed
    · obtain ⟨step, _, parsed⟩ := Option.bind_eq_some_iff.mp parsed
      exact plainToList_sorted parsed
    · cases parsed
  · exact plainToList_sorted parsed

theorem expressionToList_sorted
    (parsed : expressionToList expr maxValue minValue = some values) :
    values.Pairwise (· < ·) := by
  unfold expressionToList at parsed
  split at parsed
  · obtain ⟨lists, _, parsed⟩ := Option.bind_eq_some_iff.mp parsed
    cases parsed
    exact List.pairwise_lt_range.filter _
  · exact itemToList_sorted parsed

end Sorted

/-- The fields that the search goes through in order. -/
structure Crontab.Sorted (crontab : Crontab) : Prop where
  minutes : crontab.minutes.Pairwise (· < ·)
  hours : crontab.hours.Pairwise (· < ·)
  months : crontab.months.Pairwise (· < ·)

theorem parseCrontab_sorted {expression : Text} {crontab : Crontab}
    (parsed : parseCrontab expression = some crontab) : crontab.Sorted := by
  unfold parseCrontab at parsed
  split at parsed
  · obtain ⟨minutes, isMinutes, parsed⟩ := Option.bind_eq_some_iff.mp parsed
    obtain ⟨hours, isHours, parsed⟩ := Option.bind_eq_some_iff.mp parsed
    obtain ⟨days, _, parsed⟩ := Option.bind_eq_some_iff.mp parsed
    obtain ⟨months, isMonths, parsed⟩ := Option.bind_eq_some_iff.mp parsed
    obtain ⟨weekdays, _, parsed⟩ := Option.bind_eq_some_iff.mp parsed
    cases parsed
    exact ⟨expressionToList_sorted isMinutes, expressionToList_sorted isHours,
      expressionToList_sorted isMonths⟩
  · cases parsed

/-! ## Occurrences -/

/-- All the fields of the crontab match. -/
structure Crontab.Matches (crontab : Crontab) (moment : DateTime) :
    Prop where
  valid : moment.date.Valid
  year : moment.date.year ≤ 9999
  month : moment.date.month ∈ crontab.months
  day : crontab.matchesDay moment.date = true
  hour : moment.hour ∈ crontab.hours
  minute : moment.minute ∈ crontab.minutes

/-- A minute at which the crontab fires. -/
def Crontab.Occurs (crontab : Crontab) (time : Time) : Prop :=
  ∃ moment : DateTime, crontab.Matches moment ∧ moment.time = time

/-! ## A search in order -/

/-- What a search in order finds comes before everything else it could have
found. -/
theorem findSome?_first {α β : Type} {order : α → α → Prop} {list : List α}
    {search : α → Option β} {found : β} (sorted : list.Pairwise order)
    (isFound : list.findSome? search = some found) :
    ∃ element ∈ list, search element = some found ∧
      ∀ other ∈ list, search other ≠ none →
        other = element ∨ order element other := by
  induction list with
  | nil => cases isFound
  | cons head tail ih =>
      obtain ⟨headFirst, tailSorted⟩ := List.pairwise_cons.mp sorted
      rw [List.findSome?_cons] at isFound
      split at isFound
      · rename_i value isHead
        cases isFound
        refine ⟨head, List.mem_cons_self, isHead, ?_⟩
        intro other member _
        rcases List.mem_cons.mp member with isSame | later
        · exact Or.inl isSame
        · exact Or.inr (headFirst other later)
      · rename_i missing
        obtain ⟨element, member, isElement, first⟩ := ih tailSorted isFound
        refine ⟨element, List.mem_cons_of_mem _ member, isElement, ?_⟩
        intro other isOther present
        rcases List.mem_cons.mp isOther with rfl | later
        · exact (present missing).elim
        · exact first other later present

/-! ## The first moment of a day -/

section Day

variable {crontab : Crontab} {anchor moment : DateTime} {date : Date}

/-- The crontab has the time, and the anchor does not exclude it. -/
structure Crontab.Fits (crontab : Crontab) (anchor : DateTime) (date : Date)
    (hour minute : Nat) : Prop where
  isHour : hour ∈ crontab.hours
  isMinute : minute ∈ crontab.minutes
  notBefore : date = anchor.date →
    anchor.hour < hour ∨ hour = anchor.hour ∧ anchor.minute ≤ minute

/-- The minute of an hour that `timeOn` looks for. -/
def minuteIn (crontab : Crontab) (anchor : DateTime) (date : Date)
    (hour : Nat) : Option Nat :=
  crontab.minutes.find? fun minute =>
    !(date = anchor.date && hour = anchor.hour && minute < anchor.minute)

theorem minuteIn_some {hour minute : Nat}
    (sorted : crontab.minutes.Pairwise (· < ·))
    (found : minuteIn crontab anchor date hour = some minute) :
    minute ∈ crontab.minutes ∧
      (date = anchor.date → hour = anchor.hour → anchor.minute ≤ minute) ∧
      ∀ other ∈ crontab.minutes,
        (date = anchor.date → hour = anchor.hour → anchor.minute ≤ other) →
          minute ≤ other := by
  have admits := List.find?_some found
  refine ⟨List.mem_of_find?_eq_some found, ?_, ?_⟩
  · intro sameDay sameHour
    simpa [sameDay, sameHour] using admits
  · intro other member allowed
    obtain ⟨_, before, after, isList, skipped⟩ :=
      List.find?_eq_some_iff_append.mp found
    rw [isList] at member sorted
    rcases List.mem_append.mp member with inBefore | inAfter
    · have excluded := skipped other inBefore
      simp only [Bool.not_not, Bool.and_eq_true, decide_eq_true_eq] at excluded
      have := allowed excluded.1.1 excluded.1.2
      omega
    · rcases List.mem_cons.mp inAfter with rfl | later
      · exact Nat.le_refl _
      · have sortedAfter := (List.pairwise_append.mp sorted).2.1
        exact Nat.le_of_lt ((List.pairwise_cons.mp sortedAfter).1 other later)

theorem minuteIn_ne_none {hour minute : Nat} (member : minute ∈ crontab.minutes)
    (allowed : date = anchor.date → hour = anchor.hour →
      anchor.minute ≤ minute) :
    minuteIn crontab anchor date hour ≠ none := by
  intro missing
  have excluded := List.find?_eq_none.mp missing minute member
  simp only [Bool.not_eq_true, Bool.not_eq_false', Bool.and_eq_true,
    decide_eq_true_eq] at excluded
  have := allowed excluded.1.1 excluded.1.2
  omega

theorem timeOn_eq (crontab : Crontab) (anchor : DateTime) (date : Date) :
    crontab.timeOn anchor date =
      (crontab.hours.filter fun hour =>
        !(date = anchor.date && hour < anchor.hour)).findSome? fun hour =>
          (minuteIn crontab anchor date hour).map fun minute =>
            { date, hour, minute } := rfl

/-- The hours the search goes through. -/
theorem mem_hours {hour : Nat} :
    hour ∈ crontab.hours.filter (fun hour =>
        !(date = anchor.date && hour < anchor.hour)) ↔
      hour ∈ crontab.hours ∧ (date = anchor.date → anchor.hour ≤ hour) := by
  rw [List.mem_filter]
  by_cases sameDay : date = anchor.date
  · simp [sameDay]
  · simp [sameDay]

theorem Crontab.timeOn_some (sorted : crontab.Sorted)
    (found : crontab.timeOn anchor date = some moment) :
    moment.date = date ∧
      crontab.Fits anchor date moment.hour moment.minute ∧
      ∀ hour minute, crontab.Fits anchor date hour minute →
        moment.hour < hour ∨ moment.hour = hour ∧ moment.minute ≤ minute := by
  rw [timeOn_eq] at found
  obtain ⟨hour, isHour, inHour, first⟩ :=
    findSome?_first (sorted.hours.filter _) found
  obtain ⟨minute, isMinute, rfl⟩ := Option.map_eq_some_iff.mp inHour
  obtain ⟨minuteMember, minuteAllowed, leastMinute⟩ :=
    minuteIn_some sorted.minutes isMinute
  obtain ⟨hourMember, hourAllowed⟩ := mem_hours.mp isHour
  refine ⟨rfl, ⟨hourMember, minuteMember, ?_⟩, ?_⟩
  · intro sameDay
    rcases Nat.lt_or_ge anchor.hour hour with later | notLater
    · exact Or.inl later
    · have sameHour := Nat.le_antisymm notLater (hourAllowed sameDay)
      exact Or.inr ⟨sameHour, minuteAllowed sameDay sameHour⟩
  · intro otherHour otherMinute fits
    have allowed : date = anchor.date → otherHour = anchor.hour →
        anchor.minute ≤ otherMinute := by
      intro sameDay sameHour
      rcases fits.notBefore sameDay with later | ⟨_, notBefore⟩
      · omega
      · exact notBefore
    have isOther : otherHour ∈ crontab.hours.filter (fun hour =>
        !(date = anchor.date && hour < anchor.hour)) := by
      apply mem_hours.mpr
      refine ⟨fits.isHour, fun sameDay => ?_⟩
      rcases fits.notBefore sameDay with later | ⟨same, _⟩
      · exact Nat.le_of_lt later
      · exact Nat.le_of_eq same.symm
    have present := minuteIn_ne_none fits.isMinute allowed
    rcases first otherHour isOther (by simpa using present) with same | later
    · subst same
      exact Or.inr ⟨rfl, leastMinute otherMinute fits.isMinute allowed⟩
    · exact Or.inl later

theorem Crontab.timeOn_none {hour minute : Nat}
    (missing : crontab.timeOn anchor date = none) :
    ¬crontab.Fits anchor date hour minute := by
  intro fits
  rw [timeOn_eq, List.findSome?_eq_none_iff] at missing
  have isHour : hour ∈ crontab.hours.filter (fun hour =>
      !(date = anchor.date && hour < anchor.hour)) := by
    apply mem_hours.mpr
    refine ⟨fits.isHour, fun sameDay => ?_⟩
    rcases fits.notBefore sameDay with later | ⟨same, _⟩
    · exact Nat.le_of_lt later
    · exact Nat.le_of_eq same.symm
  have noMinute := missing hour isHour
  rw [Option.map_eq_none_iff] at noMinute
  refine minuteIn_ne_none fits.isMinute ?_ noMinute
  intro sameDay sameHour
  rcases fits.notBefore sameDay with later | ⟨_, notBefore⟩
  · omega
  · exact notBefore

end Day

/-! ## The days of a year -/

/-- The date is not before the other one. -/
def FromOn (start date : Date) : Prop := date = start ∨ start.Before date

section Dates

variable {crontab : Crontab} {start date : Date}

theorem Crontab.mem_dates :
    date ∈ crontab.dates start ↔
      date.year = start.year ∧ date.month ∈ crontab.months ∧ 1 ≤ date.day ∧
        date.day ≤ daysInMonth date.year date.month ∧ FromOn start date ∧
        crontab.matchesDay date = true := by
  simp only [Crontab.dates, List.mem_flatMap, List.mem_filter, List.mem_map,
    List.mem_range'_1]
  constructor
  · rintro ⟨month, ⟨isMonth, notEarlier⟩, ⟨day, ⟨positive, inMonth⟩, rfl⟩, kept⟩
    obtain ⟨late, matchesDay⟩ := Bool.and_eq_true_iff.mp kept
    have notEarlier := of_decide_eq_true notEarlier
    refine ⟨rfl, isMonth, positive, by simp only; omega, ?_, matchesDay⟩
    by_cases sameMonth : month = start.month
    · have notBefore : start.day ≤ day := by simpa [sameMonth] using late
      rcases Nat.lt_or_ge start.day day with later | notLater
      · exact Or.inr (Or.inr ⟨rfl, Or.inr ⟨sameMonth.symm, later⟩⟩)
      · left
        have sameDay := Nat.le_antisymm notLater notBefore
        rw [sameMonth, sameDay]
    · exact Or.inr (Or.inr ⟨rfl, Or.inl
        (Nat.lt_of_le_of_ne notEarlier (Ne.symm sameMonth))⟩)
  · rintro ⟨sameYear, isMonth, positive, inMonth, fromStart, matchesDay⟩
    have ordered : start.month < date.month ∨
        start.month = date.month ∧ start.day ≤ date.day := by
      rcases fromStart with rfl | earlier | ⟨_, later | ⟨same, later⟩⟩
      · exact Or.inr ⟨rfl, Nat.le_refl _⟩
      · omega
      · exact Or.inl later
      · exact Or.inr ⟨same, Nat.le_of_lt later⟩
    rw [sameYear] at inMonth
    refine ⟨date.month, ⟨isMonth, decide_eq_true (by omega)⟩,
      ⟨date.day, ⟨positive, by omega⟩, by rw [← sameYear]⟩, ?_⟩
    rw [Bool.and_eq_true_iff]
    refine ⟨?_, matchesDay⟩
    simp only [Bool.not_eq_true', Bool.and_eq_false_iff,
      decide_eq_false_iff_not]
    omega

theorem Crontab.dates_sorted (sorted : crontab.Sorted) :
    (crontab.dates start).Pairwise Date.Before := by
  unfold Crontab.dates
  rw [List.pairwise_flatMap]
  constructor
  · intro month _
    apply List.Pairwise.filter
    rw [List.pairwise_map]
    have days : (List.range' 1 (daysInMonth start.year month)).Pairwise
        (· < ·) := List.pairwise_lt_range'
    exact days.imp fun earlier => Or.inr ⟨rfl, Or.inr ⟨rfl, earlier⟩⟩
  · refine (sorted.months.filter _).imp ?_
    intro first second earlier left isLeft right isRight
    obtain ⟨isLeft, _⟩ := List.mem_filter.mp isLeft
    obtain ⟨isRight, _⟩ := List.mem_filter.mp isRight
    obtain ⟨_, _, rfl⟩ := List.mem_map.mp isLeft
    obtain ⟨_, _, rfl⟩ := List.mem_map.mp isRight
    exact Or.inr ⟨rfl, Or.inl earlier⟩

theorem mem_dates_of_matches {moment : DateTime}
    (isMatch : crontab.Matches moment)
    (sameYear : moment.date.year = start.year)
    (fromStart : FromOn start moment.date) :
    moment.date ∈ crontab.dates start :=
  Crontab.mem_dates.mpr ⟨sameYear, isMatch.month, isMatch.valid.day,
    isMatch.valid.day_le, fromStart, isMatch.day⟩

end Dates

/-! ## The order of moments -/

section Order

variable {left right : DateTime}

theorem before_or_same (left right : Date) :
    left = right ∨ left.Before right ∨ right.Before left := by
  obtain ⟨leftYear, leftMonth, leftDay⟩ := left
  obtain ⟨rightYear, rightMonth, rightDay⟩ := right
  simp only [Date.Before, Date.mk.injEq]
  omega

/-- A time of the day. -/
structure DateTime.InDay (moment : DateTime) : Prop where
  hour : moment.hour < 24
  minute : moment.minute < 60

theorem minutes_lt_of_before (valid : left.date.Valid) (inDay : left.InDay)
    (before : left.date.Before right.date) : left.minutes < right.minutes := by
  have earlier := before.days_lt valid
  have hour := inDay.hour
  have minute := inDay.minute
  simp only [DateTime.minutes]
  omega

/-- Minutes tell the day apart. -/
theorem fromOn_of_minutes_le (valid : right.date.Valid) (inDay : right.InDay)
    (le : left.minutes ≤ right.minutes) : FromOn left.date right.date := by
  rcases before_or_same right.date left.date with same | earlier | later
  · exact Or.inl same
  · have less := minutes_lt_of_before valid inDay earlier
    omega
  · exact Or.inr later

theorem Crontab.Matches.inDay {crontab : Crontab} {moment : DateTime}
    (wellFormed : crontab.WellFormed) (isMatch : crontab.Matches moment) :
    moment.InDay where
  hour := Nat.lt_succ_of_le (wellFormed.hours _ isMatch.hour)
  minute := Nat.lt_succ_of_le (wellFormed.minutes _ isMatch.minute)

end Order

/-! ## `next_from` -/

section NextFrom

variable {crontab : Crontab} {anchor moment : DateTime} {start : Date}

/-- A match that the anchor does not exclude fits its own day. -/
theorem fits_of_matches (inDay : anchor.InDay) (wellFormed : crontab.WellFormed)
    (isMatch : crontab.Matches moment)
    (notBefore : anchor.minutes ≤ moment.minutes) :
    crontab.Fits anchor moment.date moment.hour moment.minute where
  isHour := isMatch.hour
  isMinute := isMatch.minute
  notBefore := by
    intro sameDay
    have hour := inDay.hour
    have minute := inDay.minute
    have otherMinute := (isMatch.inDay wellFormed).minute
    simp only [DateTime.minutes, sameDay] at notBefore
    omega

/-- What is found in a year is the least match from the anchor on. -/
theorem year_first (wellFormed : crontab.WellFormed) (sorted : crontab.Sorted)
    (inDay : anchor.InDay) (year : start.year ≤ 9999)
    (positive : 1 ≤ start.year)
    (found : (crontab.dates start).findSome? (crontab.timeOn anchor) =
      some moment) :
    crontab.Matches moment ∧ FromOn start moment.date ∧
      ∀ other, crontab.Matches other → other.date.year = start.year →
        FromOn start other.date → anchor.minutes ≤ other.minutes →
          moment.minutes ≤ other.minutes := by
  obtain ⟨date, isDate, onDate, first⟩ :=
    findSome?_first (crontab.dates_sorted sorted) found
  obtain ⟨sameDate, fits, least⟩ := crontab.timeOn_some sorted onDate
  obtain ⟨sameYear, isMonth, dayPositive, inMonth, fromStart, matchesDay⟩ :=
    Crontab.mem_dates.mp isDate
  have monthBounds := wellFormed.months _ isMonth
  have isMatch : crontab.Matches moment := by
    constructor
    · rw [sameDate]
      exact ⟨by omega, monthBounds.1, monthBounds.2, dayPositive, inMonth⟩
    · rw [sameDate, sameYear]
      exact year
    · rw [sameDate]
      exact isMonth
    · rw [sameDate]
      exact matchesDay
    · exact fits.isHour
    · exact fits.isMinute
  refine ⟨isMatch, by rw [sameDate]; exact fromStart, ?_⟩
  intro other otherMatch otherYear otherFrom notBefore
  have otherFits := fits_of_matches inDay wellFormed otherMatch notBefore
  have isOther := mem_dates_of_matches otherMatch otherYear otherFrom
  have present : crontab.timeOn anchor other.date ≠ none := fun missing =>
    Crontab.timeOn_none missing otherFits
  rcases first other.date isOther present with same | later
  · rw [same] at otherFits
    have inHour := (isMatch.inDay wellFormed).minute
    have otherHour := (otherMatch.inDay wellFormed).minute
    have ordered := least other.hour other.minute otherFits
    simp only [DateTime.minutes, same, sameDate]
    omega
  · rw [← sameDate] at later
    exact Nat.le_of_lt
      (minutes_lt_of_before isMatch.valid (isMatch.inDay wellFormed) later)

theorem year_none (wellFormed : crontab.WellFormed) (inDay : anchor.InDay)
    (missing : (crontab.dates start).findSome? (crontab.timeOn anchor) = none)
    {other : DateTime} (isMatch : crontab.Matches other)
    (sameYear : other.date.year = start.year)
    (fromStart : FromOn start other.date) :
    ¬anchor.minutes ≤ other.minutes := by
  intro notBefore
  rw [List.findSome?_eq_none_iff] at missing
  exact Crontab.timeOn_none
    (missing _ (mem_dates_of_matches isMatch sameYear fromStart))
    (fits_of_matches inDay wellFormed isMatch notBefore)

/-- The first day of the year after. -/
theorem fromOn_nextYear {date : Date} (valid : date.Valid)
    (later : start.year < date.year) :
    FromOn { year := start.year + 1, month := 1, day := 1 } date := by
  have month := valid.month
  have day := valid.day
  obtain ⟨year, monthNumber, dayNumber⟩ := date
  simp only [FromOn, Date.Before, Date.mk.injEq] at *
  omega

theorem FromOn.year {date : Date} (fromStart : FromOn start date) :
    date.year = start.year ∨ start.year < date.year := by
  rcases fromStart with same | before | ⟨same, _⟩
  · exact Or.inl (by rw [same])
  · exact Or.inr before
  · exact Or.inl same.symm

/-- Year after year, the search finds the least match. -/
theorem Crontab.nextFromYear_first (wellFormed : crontab.WellFormed)
    (sorted : crontab.Sorted) (inDay : anchor.InDay) {years : Nat}
    (positive : 1 ≤ start.year) (last : start.year + years = 10000) :
    (∀ found, crontab.nextFromYear anchor years start = some found →
      crontab.Matches found ∧ FromOn start found.date ∧
        ∀ other, crontab.Matches other → FromOn start other.date →
          anchor.minutes ≤ other.minutes → found.minutes ≤ other.minutes) ∧
    (crontab.nextFromYear anchor years start = none →
      ∀ other, crontab.Matches other → FromOn start other.date →
        ¬anchor.minutes ≤ other.minutes) := by
  induction years generalizing start with
  | zero =>
      constructor
      · intro found impossible
        cases impossible
      · intro _ other isMatch fromStart
        have inTime := isMatch.year
        rcases fromStart.year with same | later
        · omega
        · omega
  | succ years ih =>
      have inTime : start.year ≤ 9999 := by omega
      have positiveNext : 1 ≤ start.year + 1 := by omega
      have lastNext : start.year + 1 + years = 10000 := by omega
      have nextYear := @ih { year := start.year + 1, month := 1, day := 1 }
        positiveNext lastNext
      simp only [Crontab.nextFromYear]
      cases inYear : (crontab.dates start).findSome?
        (crontab.timeOn anchor) with
      | some moment =>
          obtain ⟨isMatch, fromStart, least⟩ :=
            year_first wellFormed sorted inDay inTime positive inYear
          constructor
          · intro found isFound
            cases isFound
            refine ⟨isMatch, fromStart, ?_⟩
            intro other otherMatch otherFrom notBefore
            rcases otherFrom.year with same | later
            · exact least other otherMatch same otherFrom notBefore
            · have before : moment.date.Before other.date := by
                obtain ⟨date, isDate, onDate⟩ :=
                  List.exists_of_findSome?_eq_some inYear
                obtain ⟨isMoment, _⟩ := crontab.timeOn_some sorted onDate
                left
                rw [isMoment, (Crontab.mem_dates.mp isDate).1]
                exact later
              exact Nat.le_of_lt (minutes_lt_of_before isMatch.valid
                (isMatch.inDay wellFormed) before)
          · intro impossible
            cases impossible
      | none =>
          constructor
          · intro found isFound
            obtain ⟨isMatch, fromNext, least⟩ := nextYear.1 found isFound
            refine ⟨isMatch, ?_, ?_⟩
            · rcases fromNext with same | before | ⟨same, _⟩
              · right
                left
                rw [same]
                exact Nat.lt_succ_self _
              · right
                left
                exact Nat.lt_of_succ_lt before
              · right
                left
                rw [← same]
                exact Nat.lt_succ_self _
            · intro other otherMatch otherFrom notBefore
              rcases otherFrom.year with same | later
              · exact (year_none wellFormed inDay inYear otherMatch same
                  otherFrom notBefore).elim
              · exact least other otherMatch
                  (fromOn_nextYear otherMatch.valid later) notBefore
          · intro isNone other otherMatch otherFrom notBefore
            rcases otherFrom.year with same | later
            · exact year_none wellFormed inDay inYear otherMatch same otherFrom
                notBefore
            · exact nextYear.2 isNone other otherMatch
                (fromOn_nextYear otherMatch.valid later) notBefore

end NextFrom

/-! ## `next_cron_occurrence` -/

section Occurrences

variable {crontab : Crontab} {base now time : Time}

/-- The minute a time falls in. -/
theorem ofTime_some {moment : DateTime}
    (isMoment : DateTime.ofTime time = some moment) :
    moment.date.Valid ∧ moment.InDay ∧ moment.date.year ≤ 9999 ∧
      (moment.minutes : Int) = time / minuteLength := by
  obtain ⟨valid, hour, minute, _⟩ := DateTime.ofTime_spec isMoment
  refine ⟨valid, ⟨hour, minute⟩, ?_⟩
  unfold DateTime.ofTime at isMoment
  split at isMoment
  · cases isMoment
  · rename_i notNegative
    simp only at isMoment
    split at isMoment
    · rename_i inTime
      cases isMoment
      refine ⟨inTime, ?_⟩
      have nonneg : 0 ≤ time / minuteLength :=
        Int.ediv_nonneg (not_lt.mp notNegative) (by decide)
      generalize whole : (time / minuteLength).toNat = minutes
      obtain ⟨_, days⟩ := Date.ofDays_spec (minutes / 1440)
      have sum : minutes / 1440 * 1440 + minutes % 1440 / 60 * 60 +
          minutes % 60 = minutes := by omega
      simp only [DateTime.minutes, days, sum]
      rw [← whole]
      exact Int.toNat_of_nonneg nonneg
    · cases isMoment

/-- After the last minute that a `datetime` can hold nothing matches. -/
theorem ofTime_none (wellFormed : crontab.WellFormed)
    (notNegative : 0 ≤ time) (missing : DateTime.ofTime time = none)
    {moment : DateTime} (isMatch : crontab.Matches moment) :
    (moment.minutes : Int) < time / minuteLength := by
  unfold DateTime.ofTime at missing
  rw [if_neg (not_lt.mpr notNegative)] at missing
  simp only at missing
  split at missing
  · cases missing
  · rename_i tooLate
    have nonneg : 0 ≤ time / minuteLength :=
      Int.ediv_nonneg notNegative (by decide)
    generalize whole : (time / minuteLength).toNat = minutes at tooLate
    obtain ⟨_, days⟩ := Date.ofDays_spec (minutes / 1440)
    have before : moment.date.Before (Date.ofDays (minutes / 1440)) := by
      left
      exact Nat.lt_of_le_of_lt isMatch.year (Nat.lt_of_not_le tooLate)
    have earlier := before.days_lt isMatch.valid
    have inDay := isMatch.inDay wellFormed
    have hour := inDay.hour
    have minute := inDay.minute
    have less : moment.minutes < minutes := by
      rw [days] at earlier
      simp only [DateTime.minutes]
      omega
    calc (moment.minutes : Int)
        < (minutes : Int) := Int.ofNat_lt.mpr less
      _ = time / minuteLength := by
        rw [← whole]; exact Int.toNat_of_nonneg nonneg

/-- A minute that starts after the base is at least the one after the base's. -/
theorem base_lt_time_iff {moment : DateTime} :
    base < moment.time ↔
      (base + minuteLength) / minuteLength ≤ (moment.minutes : Int) := by
  have positive : (0 : Int) < minuteLength := by decide
  have next : (base + minuteLength) / minuteLength = base / minuteLength + 1 :=
    Int.add_ediv_of_dvd_right ⟨1, by decide⟩
  rw [next, Int.add_one_le_iff, Int.ediv_lt_iff_lt_mul positive]
  rfl

theorem wellFormed_of_parse {parseSolar : String → Option Solar}
    {expression : String}
    (parsed : parseCronString parseSolar expression = some (.cron crontab)) :
    crontab.WellFormed ∧ crontab.Sorted := by
  unfold parseCronString at parsed
  split at parsed
  · obtain ⟨events, _, impossible⟩ := Option.map_eq_some_iff.mp parsed
    cases impossible
  · obtain ⟨found, isCrontab, same⟩ := Option.map_eq_some_iff.mp parsed
    cases same
    exact ⟨parseCrontab_wellFormed isCrontab, parseCrontab_sorted isCrontab⟩

/-- What comes after a base, for any notion of an occurrence. -/
def later (occurs : Time → Prop) (base : Time) : Set Time :=
  {time | occurs time ∧ base < time}

/-- `next_from` finds the least occurrence after the base, if there is one. -/
theorem nextFrom_isLeast (wellFormed : crontab.WellFormed)
    (sorted : crontab.Sorted) (notNegative : 0 ≤ base) :
    (∀ found, Schedule.nextFrom (base + minuteLength) (.cron crontab) =
      some found → IsLeast (later crontab.Occurs base) found) ∧
    (Schedule.nextFrom (base + minuteLength) (.cron crontab) = none →
      ∀ other, other ∉ later crontab.Occurs base) := by
  have nonneg : 0 ≤ base + minuteLength :=
    Int.add_nonneg notNegative (by decide)
  simp only [Schedule.nextFrom, Crontab.nextFrom]
  cases isAnchor : DateTime.ofTime (base + minuteLength) with
  | none =>
      constructor
      · intro found impossible
        cases impossible
      · rintro _ other ⟨⟨moment, isMatch, rfl⟩, later⟩
        have tooEarly := ofTime_none wellFormed nonneg isAnchor isMatch
        have notEarly := base_lt_time_iff.mp later
        exact absurd notEarly (Int.not_le.mpr tooEarly)
  | some anchor =>
      obtain ⟨valid, inDay, inTime, minutes⟩ := ofTime_some isAnchor
      have last : anchor.date.year + (10000 - anchor.date.year) = 10000 := by
        omega
      have search :=
        Crontab.nextFromYear_first wellFormed sorted inDay valid.year last
      have lower : ∀ moment : DateTime, base < moment.time ↔
          anchor.minutes ≤ moment.minutes := by
        intro moment
        rw [base_lt_time_iff, ← minutes]
        exact Int.ofNat_le
      have fromAnchor : ∀ moment, crontab.Matches moment →
          anchor.minutes ≤ moment.minutes → FromOn anchor.date moment.date :=
        fun moment isMatch => fromOn_of_minutes_le isMatch.valid
          (isMatch.inDay wellFormed)
      constructor
      · intro found isFound
        obtain ⟨_, same, isBound⟩ := Option.bind_eq_some_iff.mp isFound
        cases same
        obtain ⟨moment, isMoment, same⟩ := Option.bind_eq_some_iff.mp isBound
        cases same
        obtain ⟨isMatch, _, least⟩ := search.1 moment isMoment
        have notBefore := crontab.nextFromYear_minutes_le valid inDay.hour
          inDay.minute (Or.inl rfl) isMoment
        refine ⟨⟨⟨moment, isMatch, rfl⟩, (lower moment).mpr notBefore⟩, ?_⟩
        rintro other ⟨⟨otherMoment, otherMatch, rfl⟩, later⟩
        have otherNotBefore := (lower otherMoment).mp later
        have le := least otherMoment otherMatch
          (fromAnchor otherMoment otherMatch otherNotBefore) otherNotBefore
        exact Int.mul_le_mul_of_nonneg_right (Int.ofNat_le.mpr le) (by decide)
      · intro isNone
        have missing : crontab.nextFromYear anchor
            (10000 - anchor.date.year) anchor.date = none := by
          cases found : crontab.nextFromYear anchor
              (10000 - anchor.date.year) anchor.date with
          | none => rfl
          | some moment =>
              simp [found] at isNone
        rintro other ⟨⟨moment, isMatch, rfl⟩, later⟩
        have notBefore := (lower moment).mp later
        exact search.2 missing moment isMatch
          (fromAnchor moment isMatch notBefore) notBefore

theorem nextCronOccurrence_isLeast {parseSolar : String → Option Solar}
    {expression : String}
    (parsed : parseCronString parseSolar expression = some (.cron crontab))
    (notNegative : 0 ≤ base) :
    nextCronOccurrence parseSolar expression base = some time ↔
      IsLeast (later crontab.Occurs base) time := by
  obtain ⟨wellFormed, sorted⟩ := wellFormed_of_parse parsed
  have search := nextFrom_isLeast wellFormed sorted notNegative
  have isNext : nextCronOccurrence parseSolar expression base =
      Schedule.nextFrom (base + minuteLength) (.cron crontab) := by
    simp [nextCronOccurrence, parsed]
  rw [isNext]
  constructor
  · exact search.1 time
  · intro least
    cases found : Schedule.nextFrom (base + minuteLength)
        (.cron crontab) with
    | none => exact (search.2 found time least.1).elim
    | some other => rw [(search.1 other found).unique least]

end Occurrences

/-! ## `calculate_next_run` -/

section Clamp

variable {occurs : Time → Prop} {next : Time → Option Time}
variable {base now candidate time : Time}

/-- A least occurrence after the base that is after now is the least one after
both. -/
theorem later_isLeast (isCandidate : IsLeast (later occurs base) candidate)
    (future : now < candidate) :
    some candidate = some time ↔
      IsLeast (later occurs (max base now)) time := by
  have isLeast : IsLeast (later occurs (max base now)) candidate := by
    refine ⟨⟨isCandidate.1.1, max_lt isCandidate.1.2 future⟩, ?_⟩
    intro other isOther
    exact isCandidate.2 ⟨isOther.1, (le_max_left _ _).trans_lt isOther.2⟩
  constructor
  · intro same
    cases same
    exact isLeast
  · intro other
    rw [isLeast.unique other]

/-- The candidate stays the least occurrence after a base that is not after
now, so that both ways out of the loop return the least one after now. -/
theorem clamp_isLeast
    (least : ∀ base time, 0 ≤ base →
      (next base = some time ↔ IsLeast (later occurs base) time))
    (nowNonneg : 0 ≤ now) (iterations : Nat) (notNegative : 0 ≤ base)
    (isCandidate : IsLeast (later occurs base) candidate) :
    clamp next now iterations candidate = some time ↔
      IsLeast (later occurs (max base now)) time := by
  induction iterations generalizing base candidate with
  | zero =>
      simp only [clamp]
      split
      · rename_i past
        have isNow : max base now = now :=
          max_eq_right (isCandidate.1.2.le.trans past)
        rw [isNow]
        exact least now time nowNonneg
      · rename_i future
        exact later_isLeast isCandidate (not_le.mp future)
  | succ iterations ih =>
      simp only [clamp]
      split
      · rename_i past
        have candidateNonneg : 0 ≤ candidate :=
          notNegative.trans isCandidate.1.2.le
        have isNow : max base now = now :=
          max_eq_right (isCandidate.1.2.le.trans past)
        have stillNow : max candidate now = now := max_eq_right past
        cases found : next candidate with
        | none =>
            constructor
            · intro impossible
              cases impossible
            · intro isLeast
              rw [isNow] at isLeast
              have bounded : ∃ bound : Int, ∀ other,
                  occurs other ∧ candidate < other → bound ≤ other :=
                ⟨candidate, fun other isOther => isOther.2.le⟩
              obtain ⟨first, isFirst, below⟩ :=
                Int.exists_least_of_bdd bounded
                  ⟨time, isLeast.1.1, past.trans_lt isLeast.1.2⟩
              have isNext := (least candidate first candidateNonneg).mpr
                ⟨isFirst, fun other isOther => below other isOther⟩
              rw [found] at isNext
              cases isNext
        | some second =>
            have isSecond := (least candidate second candidateNonneg).mp found
            have rest := ih candidateNonneg isSecond
            rw [stillNow] at rest
            rw [isNow]
            exact rest
      · rename_i future
        exact later_isLeast isCandidate (not_le.mp future)

end Clamp

/-- However many occurrences were missed, `calculate_next_run` returns the
least one after the base and after now. -/
theorem calculateNextRun_catches_up (parseSolar : String → Option Solar)
    (expression : String) (crontab : Crontab) (base now time : Time)
    (parsed : parseCronString parseSolar expression = some (.cron crontab))
    (baseNonneg : 0 ≤ base) (nowNonneg : 0 ≤ now) :
    calculateNextRun parseSolar expression base now = some time ↔
      IsLeast {time | crontab.Occurs time ∧ max base now < time} time := by
  have least : ∀ base time, 0 ≤ base →
      (nextCronOccurrence parseSolar expression base = some time ↔
        IsLeast (later crontab.Occurs base) time) :=
    fun base time nonneg => nextCronOccurrence_isLeast parsed nonneg
  unfold calculateNextRun
  cases found : nextCronOccurrence parseSolar expression base with
  | none =>
      constructor
      · intro impossible
        cases impossible
      · intro isLeast
        have bounded : ∃ bound : Int, ∀ other,
            crontab.Occurs other ∧ base < other → bound ≤ other :=
          ⟨base, fun other isOther => isOther.2.le⟩
        obtain ⟨first, isFirst, below⟩ := Int.exists_least_of_bdd bounded
          ⟨time, isLeast.1.1, (le_max_left _ _).trans_lt isLeast.1.2⟩
        have isNext := (least base first baseNonneg).mpr
          ⟨isFirst, fun other isOther => below other isOther⟩
        rw [found] at isNext
        cases isNext
  | some candidate =>
      exact clamp_isLeast least nowNonneg maxClampIterations baseNonneg
        ((least base candidate baseNonneg).mp found)

/-- Hourly, with seven occurrences missed. -/
theorem calculateNextRun_catches_up_hourly :
    ∃ crontab, parseCronString (fun _ => none) "0 * * * *" =
        some (.cron crontab) ∧
      IsLeast {time | crontab.Occurs time ∧
        max (60 * minuteLength) (500 * minuteLength) < time}
        (540 * minuteLength) := by
  refine ⟨_, rfl, (calculateNextRun_catches_up (fun _ => none) "0 * * * *" _
    (60 * minuteLength) (500 * minuteLength) (540 * minuteLength) rfl
    (by decide) (by decide)).mp ?_⟩
  decide +kernel

end Sqlery.Scheduling
