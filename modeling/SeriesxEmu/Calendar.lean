import Mathlib.Data.Int.Basic
import Mathlib.Tactic.IntervalCases

/-!
# The proleptic Gregorian calendar

Days are numbered from the first of January of a base year, in both directions. A date is
converted by counting the years, the months of its year and the days of its month. Years that
start in March have their leap day at the end, which makes the months of a year regular.
-/

namespace SeriesxEmu.Calendar

/-- The leap years of the Gregorian calendar. -/
def Leap (year : Int) : Prop := year % 4 = 0 ∧ (year % 100 ≠ 0 ∨ year % 400 = 0)

instance (year : Int) : Decidable (Leap year) := inferInstanceAs (Decidable (_ ∧ _))

/-- The days that a leap year has in addition. -/
def leapDay (year : Int) : Nat := if Leap year then 1 else 0

/-- The days of a month. -/
def monthLength (year : Int) : Nat → Nat
  | 2 => 28 + leapDay year
  | 4 | 6 | 9 | 11 => 30
  | _ => 31

/-- The days of a year before one of its months. -/
def monthStart (year : Int) : Nat → Nat
  | 0 | 1 => 0
  | month + 2 => monthStart year (month + 1) + monthLength year (month + 1)

/-- The number of the first of January, counted from that of the year 1601. -/
def yearStart (year : Int) : Int :=
  365 * (year - 1601) + (year - 1) / 4 - (year - 1) / 100 + (year - 1) / 400 - 388

/-- The days from the first of 1601 to a date. -/
def dayNumber (year : Int) (month day : Nat) : Int := yearStart year + monthStart year month + day - 1

/-- A date of the calendar. -/
structure ValidDate (year : Int) (month day : Nat) : Prop where
  inYear : 1 ≤ month ∧ month ≤ 12
  inMonth : 1 ≤ day ∧ day ≤ monthLength year month

/-- A year has the days of its months. -/
theorem yearStart_succ (year : Int) : yearStart (year + 1) = yearStart year + monthStart year 13 := by
  by_cases leap : Leap year <;> simp only [monthStart, monthLength, leapDay, leap, ↓reduceIte, yearStart] <;>
    unfold Leap at leap <;> omega

/-! ## Years that start in March -/

/-- The number of the first of March. -/
def marchStart (year : Int) : Int := yearStart year + monthStart year 3

/-- The day that a year starts on, when years start in March. -/
theorem marchStart_eq (year : Int) :
    marchStart year = 365 * (year - 1600) + year / 4 - year / 100 + year / 400 - 694 := by
  by_cases leap : Leap year <;>
    simp only [marchStart, monthStart, monthLength, leapDay, leap, ↓reduceIte, yearStart] <;>
    unfold Leap at leap <;> omega

/-- The days from the first of March to a month, counted from March. -/
def marchMonth (index : Nat) : Nat := (153 * index + 2) / 5

/-- The days from March to December are those of the year. -/
theorem dayNumber_spring (year : Int) {index : Nat} (before : index < 10) (day : Nat) :
    dayNumber year (index + 3) day = marchStart year + marchMonth index + day - 1 := by
  unfold dayNumber marchStart marchMonth
  interval_cases index <;> simp only [monthStart, monthLength] <;> omega

/-- January and February belong to the year that started before. -/
theorem dayNumber_winter (year : Int) {index : Nat} (after : 10 ≤ index) (before : index < 12) (day : Nat) :
    dayNumber (year + 1) (index - 9) day = marchStart year + marchMonth index + day - 1 := by
  unfold dayNumber marchStart marchMonth
  rw [yearStart_succ]
  interval_cases index <;> simp only [Nat.reduceSub, monthStart, monthLength] <;> omega

end SeriesxEmu.Calendar
