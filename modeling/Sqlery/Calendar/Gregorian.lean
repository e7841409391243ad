import Mathlib.Data.List.FinRange
import Mathlib.Tactic.Ring

/-!
# The proleptic Gregorian calendar

Days are counted from 0001-01-01.  `Date.days` numbers the days and
`Date.ofDays` finds the day of a number; dates are ordered as their numbers.
-/

namespace Sqlery.Calendar

structure Date where
  year : Nat
  month : Nat
  day : Nat
  deriving DecidableEq, Repr

def isLeap (year : Nat) : Bool :=
  year % 4 = 0 && (year % 100 ≠ 0 || year % 400 = 0)

def daysInMonth (year month : Nat) : Nat :=
  match month with
  | 2 => if isLeap year then 29 else 28
  | 4 => 30
  | 6 => 30
  | 9 => 30
  | 11 => 30
  | _ => 31

/-- The days before the first of January; years are counted from 1. -/
def daysBeforeYear (year : Nat) : Nat :=
  (year - 1) * 365 + (year - 1) / 4 - (year - 1) / 100 + (year - 1) / 400

/-- The days of the year before the first of the month. -/
def daysBeforeMonth (year : Nat) : Nat → Nat
  | 0 => 0
  | 1 => 0
  | month + 2 => daysBeforeMonth year (month + 1) + daysInMonth year (month + 1)

structure Date.Valid (date : Date) : Prop where
  year : 1 ≤ date.year
  month : 1 ≤ date.month
  month_le : date.month ≤ 12
  day : 1 ≤ date.day
  day_le : date.day ≤ daysInMonth date.year date.month

/-- The number of the day. -/
def Date.days (date : Date) : Nat :=
  daysBeforeYear date.year + daysBeforeMonth date.year date.month +
    (date.day - 1)

/-- The year of a day and the day's number in the year.  A cycle of 400 years
has four centuries, the last one a day longer, and a century 25 times four
years. -/
def yearOf (days : Nat) : Nat × Nat :=
  let n400 := days / 146097
  let inCycle := days % 146097
  let n100 := min (inCycle / 36524) 3
  let inCentury := inCycle - n100 * 36524
  let n4 := inCentury / 1461
  let inFour := inCentury % 1461
  let n1 := min (inFour / 365) 3
  (400 * n400 + 100 * n100 + 4 * n4 + n1 + 1, inFour - n1 * 365)

/-- The month of a day of the year and the day's number in the month. -/
def monthOf (year : Nat) : Nat → Nat → Nat → Nat × Nat
  | 0, month, rest => (month, rest)
  | fuel + 1, month, rest =>
      if rest < daysInMonth year month then (month, rest)
      else monthOf year fuel (month + 1) (rest - daysInMonth year month)

def Date.ofDays (days : Nat) : Date :=
  let (year, rest) := yearOf days
  let (month, day) := monthOf year 11 1 rest
  { year, month, day := day + 1 }

/-- Comparison field by field. -/
def Date.Before (left right : Date) : Prop :=
  left.year < right.year ∨ left.year = right.year ∧
    (left.month < right.month ∨ left.month = right.month ∧
      left.day < right.day)

/-! ## Years and months -/

def daysInYear (year : Nat) : Nat := if isLeap year then 366 else 365

theorem isLeap_iff (year : Nat) :
    isLeap year = true ↔
      year % 4 = 0 ∧ (year % 100 ≠ 0 ∨ year % 400 = 0) := by
  simp [isLeap]

theorem daysBeforeYear_succ {year : Nat} (positive : 1 ≤ year) :
    daysBeforeYear (year + 1) = daysBeforeYear year + daysInYear year := by
  obtain ⟨past, rfl⟩ := Nat.exists_eq_add_of_le' positive
  simp only [daysBeforeYear, daysInYear, Nat.add_sub_cancel]
  split
  · rename_i leap
    obtain ⟨four, century⟩ := (isLeap_iff _).mp leap
    omega
  · rename_i common
    have notLeap := mt (isLeap_iff _).mpr common
    by_cases four : (past + 1) % 4 = 0
    · have century : (past + 1) % 100 = 0 ∧ (past + 1) % 400 ≠ 0 := by
        constructor
        · by_contra different
          exact notLeap ⟨four, Or.inl different⟩
        · intro cycle
          exact notLeap ⟨four, Or.inr cycle⟩
      omega
    · clear notLeap
      have by4 : (past + 1) / 4 = past / 4 := by omega
      have by100 : (past + 1) / 100 = past / 100 := by omega
      have by400 : (past + 1) / 400 = past / 400 := by omega
      rw [by4, by100, by400]
      omega

theorem daysBeforeYear_mono {first second : Nat} (positive : 1 ≤ first)
    (le : first ≤ second) : daysBeforeYear first ≤ daysBeforeYear second := by
  induction le with
  | refl => exact Nat.le_refl _
  | step later ih =>
      rw [daysBeforeYear_succ (positive.trans later)]
      exact ih.trans (Nat.le_add_right _ _)

theorem daysBeforeMonth_succ {year month : Nat} (positive : 1 ≤ month) :
    daysBeforeMonth year (month + 1) =
      daysBeforeMonth year month + daysInMonth year month := by
  obtain ⟨past, rfl⟩ := Nat.exists_eq_add_of_le' positive
  rfl

theorem daysBeforeMonth_mono {year first second : Nat} (positive : 1 ≤ first)
    (le : first ≤ second) :
    daysBeforeMonth year first ≤ daysBeforeMonth year second := by
  induction le with
  | refl => exact Nat.le_refl _
  | step later ih =>
      rw [daysBeforeMonth_succ (positive.trans later)]
      exact ih.trans (Nat.le_add_right _ _)

theorem daysBeforeMonth_thirteen (year : Nat) :
    daysBeforeMonth year 13 = daysInYear year := by
  cases leap : isLeap year <;>
    simp [daysBeforeMonth, daysInMonth, daysInYear, leap]

/-! ## Dates and their numbers -/

namespace Date

variable {left right : Date}

/-- A date comes before the end of its month. -/
theorem Valid.days_lt_month (valid : left.Valid) :
    left.days < daysBeforeYear left.year +
      daysBeforeMonth left.year (left.month + 1) := by
  rw [daysBeforeMonth_succ valid.month]
  have := valid.day
  have := valid.day_le
  unfold days
  omega

/-- A date comes before the end of its year. -/
theorem Valid.days_lt_year (valid : left.Valid) :
    left.days < daysBeforeYear (left.year + 1) := by
  have inMonth := valid.days_lt_month
  have inYear : daysBeforeMonth left.year (left.month + 1) ≤
      daysBeforeMonth left.year 13 :=
    daysBeforeMonth_mono (by omega) (Nat.succ_le_succ valid.month_le)
  rw [daysBeforeMonth_thirteen] at inYear
  rw [daysBeforeYear_succ valid.year]
  omega

/-- Dates are ordered as their numbers. -/
theorem Before.days_lt (before : left.Before right) (valid : left.Valid) :
    left.days < right.days := by
  rcases before with year | ⟨sameYear, month | ⟨sameMonth, day⟩⟩
  · calc left.days
        < daysBeforeYear (left.year + 1) := valid.days_lt_year
      _ ≤ daysBeforeYear right.year :=
          daysBeforeYear_mono (by omega) year
      _ ≤ right.days := by
          unfold days
          omega
  · have later : daysBeforeMonth left.year (left.month + 1) ≤
        daysBeforeMonth left.year right.month :=
      daysBeforeMonth_mono (by omega) month
    calc left.days
        < daysBeforeYear left.year +
            daysBeforeMonth left.year (left.month + 1) :=
          valid.days_lt_month
      _ ≤ daysBeforeYear right.year +
            daysBeforeMonth right.year right.month := by
          rw [← sameYear]
          omega
      _ ≤ right.days := Nat.le_add_right _ _
  · have first := valid.day
    simp only [days, sameYear, sameMonth]
    omega

end Date

/-! ## The date of a number -/

/-- The days before a year, by the cycles and centuries before it. -/
theorem daysBeforeYear_cycles {n400 n100 n4 n1 : Nat} (centuries : n100 ≤ 3)
    (fours : n4 ≤ 24) (ones : n1 ≤ 3) :
    daysBeforeYear (400 * n400 + 100 * n100 + 4 * n4 + n1 + 1) =
      146097 * n400 + 36524 * n100 + 1461 * n4 + 365 * n1 := by
  have by4 : (400 * n400 + 100 * n100 + 4 * n4 + n1) / 4 =
      100 * n400 + 25 * n100 + n4 := by omega
  have by100 : (400 * n400 + 100 * n100 + 4 * n4 + n1) / 100 =
      4 * n400 + n100 := by omega
  have by400 : (400 * n400 + 100 * n100 + 4 * n4 + n1) / 400 = n400 := by
    omega
  simp only [daysBeforeYear, Nat.add_sub_cancel, by4, by100, by400]
  omega

/-- The year contains the day. -/
theorem yearOf_spec (days : Nat) :
    1 ≤ (yearOf days).1 ∧ (yearOf days).2 < daysInYear (yearOf days).1 ∧
      daysBeforeYear (yearOf days).1 + (yearOf days).2 = days := by
  simp only [yearOf]
  generalize cycle : days / 146097 = n400
  generalize inCycle : days % 146097 = rest
  have whole : 146097 * n400 + rest = days := by omega
  have short : rest < 146097 := by omega
  generalize century : min (rest / 36524) 3 = n100
  generalize inCentury : rest - n100 * 36524 = rest'
  have centuryLe : n100 ≤ 3 := by omega
  have whole' : 36524 * n100 + rest' = rest := by omega
  have short' : rest' ≤ 36524 ∧ (n100 < 3 → rest' < 36524) := by omega
  generalize four : rest' / 1461 = n4
  generalize inFour : rest' % 1461 = rest''
  have fourLe : n4 ≤ 24 := by omega
  have whole'' : 1461 * n4 + rest'' = rest' := by omega
  have short'' : rest'' < 1461 := by omega
  generalize one : min (rest'' / 365) 3 = n1
  have oneLe : n1 ≤ 3 := by omega
  refine ⟨by omega, ?_, ?_⟩
  · unfold daysInYear
    split
    · omega
    · rename_i common
      have notLeap := mt (isLeap_iff _).mpr common
      by_cases last : rest'' = 1460
      · -- only a leap year has that many days
        have isLast : n1 = 3 := by omega
        exfalso
        apply notLeap
        subst isLast
        by_cases lastFour : n4 = 24
        · have lastCentury : n100 = 3 := by omega
          subst lastFour lastCentury
          constructor
          · omega
          · right
            omega
        · have early : n4 < 24 := by omega
          clear whole whole' whole'' short short' inCycle inCentury century
            four one
          constructor
          · omega
          · left
            omega
      · omega
  · rw [daysBeforeYear_cycles centuryLe fourLe oneLe]
    omega

/-- The month contains the day. -/
theorem monthOf_spec {year fuel month rest : Nat} (positive : 1 ≤ month)
    (months : month + fuel = 12)
    (within : daysBeforeMonth year month + rest < daysBeforeMonth year 13) :
    1 ≤ (monthOf year fuel month rest).1 ∧
      (monthOf year fuel month rest).1 ≤ 12 ∧
      (monthOf year fuel month rest).2 <
        daysInMonth year (monthOf year fuel month rest).1 ∧
      daysBeforeMonth year (monthOf year fuel month rest).1 +
          (monthOf year fuel month rest).2 =
        daysBeforeMonth year month + rest := by
  induction fuel generalizing month rest with
  | zero =>
      have last : month = 12 := by omega
      subst last
      have next : daysBeforeMonth year 13 =
          daysBeforeMonth year 12 + daysInMonth year 12 := rfl
      exact ⟨positive, Nat.le_refl 12, by simp only [monthOf]; omega, rfl⟩
  | succ fuel ih =>
      simp only [monthOf]
      split
      · rename_i inside
        exact ⟨positive, by omega, inside, rfl⟩
      · rename_i beyond
        have next : daysBeforeMonth year (month + 1) =
            daysBeforeMonth year month + daysInMonth year month :=
          daysBeforeMonth_succ positive
        have still : daysBeforeMonth year (month + 1) +
            (rest - daysInMonth year month) < daysBeforeMonth year 13 := by
          omega
        have found := ih (Nat.le_add_left 1 month) (by omega) still
        omega

theorem Date.ofDays_spec (days : Nat) :
    (Date.ofDays days).Valid ∧ (Date.ofDays days).days = days := by
  obtain ⟨year, inYear, wholeYear⟩ := yearOf_spec days
  have within : daysBeforeMonth (yearOf days).1 1 + (yearOf days).2 <
      daysBeforeMonth (yearOf days).1 13 := by
    rw [daysBeforeMonth_thirteen]
    simpa [daysBeforeMonth] using inYear
  obtain ⟨month, monthLe, inMonth, wholeMonth⟩ :=
    monthOf_spec (Nat.le_refl 1) (show 1 + 11 = 12 from rfl) within
  have start : daysBeforeMonth (yearOf days).1 1 = 0 := rfl
  constructor
  · constructor
    · exact year
    · exact month
    · exact monthLe
    · exact Nat.succ_le_succ (Nat.zero_le _)
    · exact inMonth
  · simp only [Date.days, Date.ofDays, Nat.add_sub_cancel]
    omega

end Sqlery.Calendar
