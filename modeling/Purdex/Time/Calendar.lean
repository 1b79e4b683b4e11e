/-
The Gregorian calendar over the days since the first of January 1970: the year, the month and the date of a day, and the weeks that begin
on a Monday and are numbered in the year of their Thursday.
-/
import Mathlib.Data.List.Basic

namespace Calendar

/-! ## Years -/

/-- The day on which a year begins. -/
def dayFromYear (y : Int) : Int := 365 * (y - 1970) + (y - 1969) / 4 - (y - 1901) / 100 + (y - 1601) / 400

def leapDays (y : Int) : Int := if y % 4 = 0 ∧ (y % 100 ≠ 0 ∨ y % 400 = 0) then 1 else 0

/-- About as many times 146097 days as there are times 400 years, one year more or less. -/
def yearFromDay (d : Int) : Int :=
  let y := 1970 + d * 400 / 146097
  if d < dayFromYear y then y - 1 else if dayFromYear (y + 1) ≤ d then y + 1 else y

theorem dayFromYear_succ (y : Int) : dayFromYear (y + 1) = dayFromYear y + 365 + leapDays y := by
  unfold dayFromYear leapDays
  split <;> omega

theorem leapDays_cases (y : Int) : leapDays y = 0 ∨ leapDays y = 1 := by
  unfold leapDays
  split
  · exact .inr rfl
  · exact .inl rfl

theorem yearFromDay_spec (d : Int) : dayFromYear (yearFromDay d) ≤ d ∧ d < dayFromYear (yearFromDay d + 1) := by
  -- the guess is never off by more than one
  have hlow : dayFromYear (1970 + d * 400 / 146097 - 1) ≤ d := by
    unfold dayFromYear
    omega
  have hhigh : d < dayFromYear (1970 + d * 400 / 146097 + 1 + 1) := by
    unfold dayFromYear
    omega
  unfold yearFromDay
  dsimp only
  split
  · rename_i hbefore
    rw [Int.sub_add_cancel]
    exact ⟨hlow, hbefore⟩
  · rename_i hbefore
    split
    · rename_i hafter
      exact ⟨hafter, hhigh⟩
    · rename_i hafter
      exact ⟨Int.not_lt.1 hbefore, Int.not_le.1 hafter⟩

theorem yearFromDay_nonneg {d : Int} (h : 0 ≤ d) : 0 ≤ yearFromDay d := by
  obtain ⟨-, hhigh⟩ := yearFromDay_spec d
  unfold dayFromYear at hhigh
  omega

/-! ## Months -/

/-- The day of the year on which a month begins, January being zero. -/
def monthStart (leap : Int) : Nat → Int
  | 0 => 0
  | 1 => 31
  | 2 => 59 + leap
  | 3 => 90 + leap
  | 4 => 120 + leap
  | 5 => 151 + leap
  | 6 => 181 + leap
  | 7 => 212 + leap
  | 8 => 243 + leap
  | 9 => 273 + leap
  | 10 => 304 + leap
  | _ => 334 + leap

def monthInYear (leap n : Int) : Nat :=
  if n < 31 then 0 else if n < 59 + leap then 1 else if n < 90 + leap then 2 else if n < 120 + leap then 3
  else if n < 151 + leap then 4 else if n < 181 + leap then 5 else if n < 212 + leap then 6 else if n < 243 + leap then 7
  else if n < 273 + leap then 8 else if n < 304 + leap then 9 else if n < 334 + leap then 10 else 11

def monthFromDay (d : Int) : Nat := monthInYear (leapDays (yearFromDay d)) (d - dayFromYear (yearFromDay d))

/-- The day of the month, the first being one. -/
def dateFromDay (d : Int) : Int := d - dayFromYear (yearFromDay d) - monthStart (leapDays (yearFromDay d)) (monthFromDay d) + 1

def makeDay (y : Int) (month : Nat) (date : Int) : Int := dayFromYear y + monthStart (leapDays y) month + date - 1

theorem monthInYear_le (leap n : Int) : monthInYear leap n ≤ 11 := by
  unfold monthInYear
  repeat' split
  all_goals omega

theorem month_bounds {leap n : Int} (hleap : leap = 0 ∨ leap = 1) (hpos : 0 ≤ n) (hlt : n < 365 + leap) :
    monthStart leap (monthInYear leap n) ≤ n ∧ n < monthStart leap (monthInYear leap n) + 31 := by
  unfold monthInYear
  repeat' split
  all_goals
    simp only [monthStart]
    omega

theorem dateFromDay_bounds (d : Int) : 1 ≤ dateFromDay d ∧ dateFromDay d ≤ 31 := by
  obtain ⟨hlow, hhigh⟩ := yearFromDay_spec d
  rw [dayFromYear_succ] at hhigh
  have hmonth := month_bounds (leapDays_cases (yearFromDay d)) (n := d - dayFromYear (yearFromDay d)) (by omega) (by omega)
  unfold dateFromDay monthFromDay
  omega

/-- A day is told by its year, its month and its date. -/
theorem makeDay_date (d : Int) : makeDay (yearFromDay d) (monthFromDay d) (dateFromDay d) = d := by
  unfold makeDay dateFromDay
  omega

/-! ## Weeks -/

/-- The number of the week, which begins on a Monday; that of the first of January 1970 is zero. -/
def weekOf (d : Int) : Int := (d + 3) / 7

def thursdayOf (d : Int) : Int := 7 * weekOf d

/-- The weeks of a year are counted from the one with the fourth of January in it. -/
def weekInYear (y thursday : Int) : Int := 1 + (2 * (thursday - (dayFromYear y + 3)) + 7) / 14

theorem weekInYear_inj {y w w' : Int} (h : weekInYear y (7 * w) = weekInYear y (7 * w')) : w = w' := by
  unfold weekInYear at h
  omega

theorem weekInYear_bounds (d : Int) : 1 ≤ weekInYear (yearFromDay (thursdayOf d)) (thursdayOf d) ∧
    weekInYear (yearFromDay (thursdayOf d)) (thursdayOf d) ≤ 53 := by
  obtain ⟨hlow, hhigh⟩ := yearFromDay_spec (thursdayOf d)
  have hleap := leapDays_cases (yearFromDay (thursdayOf d))
  rw [dayFromYear_succ] at hhigh
  unfold weekInYear
  omega

end Calendar
