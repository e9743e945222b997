import Mathlib.Algebra.BigOperators.Group.Finset.Basic
import Mathlib.Tactic

set_option autoImplicit false

/-! # The proleptic Gregorian calendar

Leap years, the length of a year and of a month, and the number of a date: how many days lie between
it and the first of January of year 0. The number is defined by counting the days of the years and
months before the date; the closed forms the C library computes with are proved equal to the counts.
Months are numbered from 1. A day beyond the end of its month counts on into the next one. -/

namespace Calendar

def isLeap (year : ℕ) : Bool := year % 4 = 0 ∧ (year % 100 ≠ 0 ∨ year % 400 = 0)

def yearLength (year : ℕ) : ℕ := if isLeap year then 366 else 365

def monthLength (year : ℕ) : ℕ → ℕ
  | 2 => if isLeap year then 29 else 28
  | 4 | 6 | 9 | 11 => 30
  | _ => 31

/-- The days of the years before `year`. -/
def daysBeforeYear (year : ℕ) : ℕ := ∑ y ∈ Finset.range year, yearLength y

/-- The days of the months of `year` before `month`. -/
def daysBeforeMonth (year month : ℕ) : ℕ := ∑ m ∈ Finset.Ico 1 month, monthLength year m

def dayNumber (year month day : ℕ) : ℤ :=
  daysBeforeYear year + daysBeforeMonth year month + (day - 1)

/-! ## Closed forms -/

/-- A leap year more exactly where one of the three quotients moves. -/
theorem yearLength_add (year : ℕ) :
    yearLength year + ((year + 1 + 99) / 100 - (year + 99) / 100)
      = 365 + ((year + 1 + 3) / 4 - (year + 3) / 4) + ((year + 1 + 399) / 400 - (year + 399) / 400) := by
  unfold yearLength isLeap
  simp only [decide_eq_true_eq]
  split
  · omega
  · omega

/-- **Days before a year**: 365 a year, and one more for every leap year before it. -/
theorem daysBeforeYear_eq (year : ℕ) :
    daysBeforeYear year + (year + 99) / 100 = 365 * year + (year + 3) / 4 + (year + 399) / 400 := by
  induction year with
  | zero => rfl
  | succ year ih =>
      have hlength := yearLength_add year
      rw [daysBeforeYear, Finset.sum_range_succ, ← daysBeforeYear]
      omega

/-- The day of a common year a month begins with, from 0. -/
def monthStarts : List ℕ := [0, 31, 59, 90, 120, 151, 181, 212, 243, 273, 304, 334]

/-- **Days before a month**: those of a common year, and the leap day from March on. -/
theorem daysBeforeMonth_eq (year : ℕ) {month : ℕ} (hlo : 1 ≤ month) (hhi : month ≤ 12) :
    daysBeforeMonth year month
      = monthStarts.getD (month - 1) 0 + (if isLeap year ∧ 2 < month then 1 else 0) := by
  unfold daysBeforeMonth
  cases hleap : isLeap year with
  | true =>
      have hlength : ∀ m, monthLength year m = monthLength 4 m := by
        intro m
        unfold monthLength
        rw [hleap]
        rfl
      simp only [hlength, true_and]
      have hall : ∀ month < 13, 1 ≤ month → ∑ m ∈ Finset.Ico 1 month, monthLength 4 m
          = monthStarts.getD (month - 1) 0 + (if 2 < month then 1 else 0) := by decide
      exact hall month (by omega) hlo
  | false =>
      have hlength : ∀ m, monthLength year m = monthLength 1 m := by
        intro m
        unfold monthLength
        rw [hleap]
        rfl
      have hall : ∀ month < 13, 1 ≤ month → ∑ m ∈ Finset.Ico 1 month, monthLength 1 m
          = monthStarts.getD (month - 1) 0 := by decide
      simp only [hlength, Bool.false_eq_true, false_and, if_false, Nat.add_zero]
      exact hall month (by omega) hlo

end Calendar
