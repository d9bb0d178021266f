import Mathlib.Data.Int.Order.Basic
import Mathlib.Tactic.IntervalCases

/-! The proleptic Gregorian calendar on integer days, counted from 1 January 1970. -/

namespace Calendar

/-- The day on which year `y` begins. -/
def dayFromYear (y : Int) : Int :=
  365 * (y - 1970) + (y - 1969) / 4 - (y - 1901) / 100 + (y - 1601) / 400

/-- The year of a day: a linear estimate, off by at most one. -/
def yearOfDay (d : Int) : Int :=
  let y := 1970 + 400 * d / 146097
  if d < dayFromYear y then y - 1 else if dayFromYear (y + 1) ≤ d then y + 1 else y

/-- 1 in a leap year, 0 in any other. -/
def leap (y : Int) : Int := dayFromYear (y + 1) - dayFromYear y - 365

/-- Days of a year before its month `m`, months counted from 0. -/
def daysBeforeMonth (l : Int) : Nat → Int
  | 0 => 0
  | 1 => 31
  | 2 => 59 + l
  | 3 => 90 + l
  | 4 => 120 + l
  | 5 => 151 + l
  | 6 => 181 + l
  | 7 => 212 + l
  | 8 => 243 + l
  | 9 => 273 + l
  | 10 => 304 + l
  | 11 => 334 + l
  | _ => 365 + l

/-- The last month no later than `m` that has begun by the day `d` of its year. -/
def monthOfYearDay (l d : Int) : Nat → Nat
  | 0 => 0
  | m + 1 => if daysBeforeMonth l (m + 1) ≤ d then m + 1 else monthOfYearDay l d m

def monthOfDay (d : Int) : Nat :=
  let y := yearOfDay d
  monthOfYearDay (leap y) (d - dayFromYear y) 11

/-- The first day of month `m` of year `y`; months past 11 run on into later years. -/
def firstOfMonth (y : Int) (m : Nat) : Int :=
  let y' := y + (m / 12 : Nat)
  dayFromYear y' + daysBeforeMonth (leap y') (m % 12)

theorem yearOfDay_spec (d : Int) :
    dayFromYear (yearOfDay d) ≤ d ∧ d < dayFromYear (yearOfDay d + 1) := by
  unfold yearOfDay
  simp only
  split
  next early =>
    rw [Int.sub_add_cancel]
    refine ⟨?_, early⟩
    simp only [dayFromYear] at *
    omega
  next notEarly =>
    split
    next late =>
      refine ⟨late, ?_⟩
      simp only [dayFromYear] at *
      omega
    next notLate => constructor <;> omega

theorem leap_bounds (y : Int) : 0 ≤ leap y ∧ leap y ≤ 1 := by
  unfold leap dayFromYear
  omega

theorem monthOfYearDay_le (l d : Int) (m : Nat) : monthOfYearDay l d m ≤ m := by
  induction m with
  | zero => exact Nat.le_refl 0
  | succ m ih =>
    simp only [monthOfYearDay]
    split
    · exact Nat.le_refl _
    · exact Nat.le_succ_of_le ih

/-- The month found for a day of the year is the one whose days include it. -/
theorem monthOfYearDay_spec {l d : Int} {m : Nat} (first : 0 ≤ d)
    (last : d < daysBeforeMonth l (m + 1)) :
    daysBeforeMonth l (monthOfYearDay l d m) ≤ d ∧
      d < daysBeforeMonth l (monthOfYearDay l d m + 1) := by
  induction m with
  | zero => exact ⟨first, last⟩
  | succ m ih =>
    simp only [monthOfYearDay]
    split
    next begun => exact ⟨begun, last⟩
    next notBegun => exact ih (Int.not_le.mp notBegun)

/-- A month of the year begins its days after New Year; month 12 is the next January. -/
theorem firstOfMonth_eq (y : Int) {m : Nat} (le : m ≤ 12) :
    firstOfMonth y m = dayFromYear y + daysBeforeMonth (leap y) m := by
  rcases Nat.lt_or_eq_of_le le with small | rfl
  · simp [firstOfMonth, Nat.div_eq_of_lt small, Nat.mod_eq_of_lt small]
  · change dayFromYear (y + 1) + 0 = dayFromYear y + (365 + leap y)
    rw [leap]
    omega

/-- A day lies in its calendar month: from the month's first day, before the next one's. -/
theorem day_mem_month (d : Int) :
    firstOfMonth (yearOfDay d) (monthOfDay d) ≤ d ∧
      d < firstOfMonth (yearOfDay d) (monthOfDay d + 1) := by
  obtain ⟨begun, ends⟩ := yearOfDay_spec d
  have first : 0 ≤ d - dayFromYear (yearOfDay d) := by omega
  have last : d - dayFromYear (yearOfDay d) < daysBeforeMonth (leap (yearOfDay d)) (11 + 1) := by
    simp only [daysBeforeMonth, leap]
    omega
  have small := monthOfYearDay_le (leap (yearOfDay d)) (d - dayFromYear (yearOfDay d)) 11
  obtain ⟨lower, upper⟩ := monthOfYearDay_spec first last
  rw [monthOfDay, firstOfMonth_eq _ (by omega), firstOfMonth_eq _ (by omega)]
  omega

theorem dayFromYear_succ_le {y y' : Int} (later : y < y') : dayFromYear (y + 1) ≤ dayFromYear y' := by
  simp only [dayFromYear]
  omega

theorem daysBeforeMonth_lt_succ (y : Int) {m : Nat} (le : m ≤ 11) :
    daysBeforeMonth (leap y) m < daysBeforeMonth (leap y) (m + 1) := by
  have bounds := leap_bounds y
  interval_cases m <;> simp only [daysBeforeMonth] <;> omega

theorem daysBeforeMonth_mono (y : Int) {m m' : Nat} (le : m ≤ m') (last : m' ≤ 12) :
    daysBeforeMonth (leap y) m ≤ daysBeforeMonth (leap y) m' := by
  induction m' with
  | zero =>
    obtain rfl : m = 0 := by omega
    exact le_rfl
  | succ m' ih =>
    rcases Nat.lt_or_eq_of_le le with before | rfl
    · exact (ih (by omega) (by omega)).trans (daysBeforeMonth_lt_succ y (by omega)).le
    · exact le_rfl

/-- A day of a month is a day of that month's year. -/
theorem yearOfDay_unique {y : Int} {m : Nat} {d : Int} (le : m ≤ 11) (begun : firstOfMonth y m ≤ d)
    (ends : d < firstOfMonth y (m + 1)) : yearOfDay d = y := by
  rw [firstOfMonth_eq y (by omega)] at begun ends
  have first : 0 ≤ daysBeforeMonth (leap y) m := daysBeforeMonth_mono y (Nat.zero_le m) (by omega)
  have last : daysBeforeMonth (leap y) (m + 1) ≤ 365 + leap y :=
    daysBeforeMonth_mono y (show m + 1 ≤ 12 by omega) le_rfl
  have length : dayFromYear (y + 1) = dayFromYear y + 365 + leap y := by
    rw [leap]
    omega
  obtain ⟨lower, upper⟩ := yearOfDay_spec d
  rcases lt_trichotomy (yearOfDay d) y with early | same | late
  · have next := dayFromYear_succ_le early
    omega
  · exact same
  · have next := dayFromYear_succ_le late
    omega

/-- A day lies in one month of its year only. -/
theorem monthOfDay_unique {y : Int} {m : Nat} {d : Int} (le : m ≤ 11)
    (begun : firstOfMonth y m ≤ d) (ends : d < firstOfMonth y (m + 1)) : monthOfDay d = m := by
  have year := yearOfDay_unique le begun ends
  obtain ⟨lower, upper⟩ := day_mem_month d
  have small : monthOfDay d ≤ 11 := monthOfYearDay_le _ _ _
  rw [year] at lower upper
  rw [firstOfMonth_eq y (by omega)] at begun ends lower upper
  rcases lt_trichotomy (monthOfDay d) m with early | same | late
  · have next := daysBeforeMonth_mono y (show monthOfDay d + 1 ≤ m by omega) (by omega)
    omega
  · exact same
  · have next := daysBeforeMonth_mono y (show m + 1 ≤ monthOfDay d by omega) (by omega)
    omega

/-- The first day after a month is the first of the next: December is followed by January of the
next year. -/
theorem next_month {y : Int} {m : Nat} (le : m ≤ 11) :
    yearOfDay (firstOfMonth y (m + 1)) = (if m = 11 then y + 1 else y) ∧
      monthOfDay (firstOfMonth y (m + 1)) = if m = 11 then 0 else m + 1 := by
  have longer (y' : Int) {m' : Nat} (le' : m' ≤ 11) :
      firstOfMonth y' m' < firstOfMonth y' (m' + 1) := by
    rw [firstOfMonth_eq y' (by omega), firstOfMonth_eq y' (by omega)]
    exact Int.add_lt_add_left (daysBeforeMonth_lt_succ y' le') _
  split
  next december =>
    subst december
    have january : firstOfMonth y (11 + 1) = firstOfMonth (y + 1) 0 := by simp [firstOfMonth]
    rw [january]
    have first : firstOfMonth (y + 1) 0 < firstOfMonth (y + 1) 1 := longer (y + 1) (by omega)
    exact ⟨yearOfDay_unique (by omega) le_rfl first, monthOfDay_unique (by omega) le_rfl first⟩
  next other =>
    have within : m + 1 ≤ 11 := by omega
    have first := longer y within
    exact ⟨yearOfDay_unique within le_rfl first, monthOfDay_unique within le_rfl first⟩

end Calendar
