import Mathlib.Data.Int.Order.Basic
import Mathlib.Tactic.SplitIfs

/-! # The calendar

The proleptic Gregorian calendar over the days since 1 January 1970. A day is taken apart into year,
month and date, where the months are numbered from 0; `makeDay` puts it together again.
-/

namespace CodeShare.Calendar
set_option autoImplicit false

/-- The first day of a year. -/
def dayFromYear (y : ℤ) : ℤ :=
  365 * (y - 1970) + (y - 1969) / 4 - (y - 1901) / 100 + (y - 1601) / 400

/-- The days that a leap year has more. -/
def inLeapYear (y : ℤ) : ℤ := if y % 4 = 0 ∧ (y % 100 ≠ 0 ∨ y % 400 = 0) then 1 else 0

/-- The last year that does not begin behind the day. -/
def yearFromDay (day : ℤ) : ℤ :=
  let y := 1970 + 400 * day / 146097
  if day < dayFromYear y then y - 1 else if dayFromYear (y + 1) ≤ day then y + 1 else y

/-- The day of its year on which a month begins. -/
def monthStart (leap : ℤ) : ℕ → ℤ
  | 0 => 0
  | 1 => 31
  | 2 => 59 + leap
  | 3 => 90 + leap
  | 4 => 120 + leap
  | 5 => 151 + leap
  | 6 => 181 + leap
  | 7 => 212 + leap
  | 8 => 243 + leap
  | 9 => 273 + leap
  | 10 => 304 + leap
  | _ => 334 + leap

def monthWithinYear (leap : ℤ) (day : ℤ) : ℕ :=
  if day < 31 then 0
  else if day < 59 + leap then 1
  else if day < 90 + leap then 2
  else if day < 120 + leap then 3
  else if day < 151 + leap then 4
  else if day < 181 + leap then 5
  else if day < 212 + leap then 6
  else if day < 243 + leap then 7
  else if day < 273 + leap then 8
  else if day < 304 + leap then 9
  else if day < 334 + leap then 10
  else 11

def dayWithinYear (day : ℤ) : ℤ := day - dayFromYear (yearFromDay day)

def monthFromDay (day : ℤ) : ℕ := monthWithinYear (inLeapYear (yearFromDay day)) (dayWithinYear day)

def dateFromDay (day : ℤ) : ℤ :=
  dayWithinYear day - monthStart (inLeapYear (yearFromDay day)) (monthFromDay day) + 1

/-- The day with a year, a month and a date; the date may lie outside of the month. -/
def makeDay (year : ℤ) (month : ℕ) (date : ℤ) : ℤ :=
  dayFromYear year + monthStart (inLeapYear year) month + date - 1

variable (day year : ℤ)

/-! ## Years -/

theorem inLeapYear_bounds : 0 ≤ inLeapYear year ∧ inLeapYear year ≤ 1 := by
  unfold inLeapYear
  split_ifs <;> omega

theorem dayFromYear_succ : dayFromYear (year + 1) = dayFromYear year + 365 + inLeapYear year := by
  unfold dayFromYear inLeapYear
  split_ifs <;> omega

theorem dayFromYear_yearFromDay :
    dayFromYear (yearFromDay day) ≤ day ∧ day < dayFromYear (yearFromDay day + 1) := by
  have hestimate : dayFromYear (1970 + 400 * day / 146097 - 1) ≤ day ∧
      day < dayFromYear (1970 + 400 * day / 146097 + 1 + 1) := by
    unfold dayFromYear
    omega
  unfold yearFromDay
  dsimp only
  split_ifs with hlate hearly
  · have hback : 1970 + 400 * day / 146097 - 1 + 1 = 1970 + 400 * day / 146097 := by omega
    rw [hback]
    exact ⟨hestimate.1, hlate⟩
  · exact ⟨hearly, hestimate.2⟩
  · omega

/-- A day of a later year is a later day. -/
theorem lt_of_yearFromDay_lt {a b : ℤ} (h : yearFromDay a < yearFromDay b) : a < b := by
  have ha := dayFromYear_yearFromDay a
  have hb := dayFromYear_yearFromDay b
  have hyears : dayFromYear (yearFromDay a + 1) ≤ dayFromYear (yearFromDay b) := by
    unfold dayFromYear
    omega
  omega

/-! ## Months and dates -/

theorem dayWithinYear_bounds :
    0 ≤ dayWithinYear day ∧ dayWithinYear day < 365 + inLeapYear (yearFromDay day) := by
  have hyear := dayFromYear_yearFromDay day
  rw [dayFromYear_succ] at hyear
  unfold dayWithinYear
  omega

theorem monthWithinYear_lt (leap : ℤ) : monthWithinYear leap day < 12 := by
  unfold monthWithinYear
  repeat' split
  all_goals decide

theorem monthStart_monthWithinYear {leap : ℤ} (hleap : 0 ≤ leap ∧ leap ≤ 1)
    (hday : 0 ≤ day ∧ day < 365 + leap) :
    monthStart leap (monthWithinYear leap day) ≤ day ∧
      day < monthStart leap (monthWithinYear leap day) + 31 := by
  unfold monthWithinYear
  repeat' split
  all_goals
    simp only [monthStart]
    omega

theorem monthStart_bounds {leap : ℤ} (hleap : 0 ≤ leap ∧ leap ≤ 1) (month : ℕ) :
    0 ≤ monthStart leap month ∧ monthStart leap month ≤ 335 := by
  unfold monthStart
  split <;> omega

theorem monthFromDay_lt : monthFromDay day < 12 := monthWithinYear_lt _ _

theorem dateFromDay_bounds : 1 ≤ dateFromDay day ∧ dateFromDay day ≤ 31 := by
  have hmonth := monthStart_monthWithinYear (dayWithinYear day)
    (inLeapYear_bounds (yearFromDay day)) (dayWithinYear_bounds day)
  unfold dateFromDay monthFromDay
  omega

theorem makeDay_add (month : ℕ) (date n : ℤ) :
    makeDay year month (date + n) = makeDay year month date + n := by
  unfold makeDay
  omega

/-- A later year has later days. -/
theorem makeDay_strictMono {year later : ℤ} (hlater : year < later) (month : ℕ) (date : ℤ) :
    makeDay year month date < makeDay later month date := by
  have hmonth := monthStart_bounds (inLeapYear_bounds year) month
  have hmonth' := monthStart_bounds (inLeapYear_bounds later) month
  have hyears : dayFromYear year + 365 ≤ dayFromYear later := by
    unfold dayFromYear
    omega
  unfold makeDay
  omega

/-- A day is the one with its year, month and date. -/
theorem makeDay_self : makeDay (yearFromDay day) (monthFromDay day) (dateFromDay day) = day := by
  unfold makeDay dateFromDay dayWithinYear
  omega

end CodeShare.Calendar
