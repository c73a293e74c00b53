import Mathlib.Order.Monotone.Basic
import Mathlib.Tactic.Common

/-!
# Civil days

The Gregorian date of a day, counted in eras of 400 years from the first of March of
the year 0, and that a date has one day.
-/

namespace TaroTria.Calendar

/-- The number of days of the years of an era before its year `y`. -/
def daysBefore (y : Nat) : Nat := 365 * y + y / 4 - y / 100

def yearOfEra (dayOfEra : Nat) : Nat :=
  (dayOfEra - dayOfEra / 1460 + dayOfEra / 36524 - dayOfEra / 146096) / 365

/-- The month that begins the year is March. -/
def marchMonth (dayOfYear : Nat) : Nat := (5 * dayOfYear + 2) / 153

def monthOf (dayOfYear : Nat) : Nat :=
  if marchMonth dayOfYear < 10 then marchMonth dayOfYear + 3 else marchMonth dayOfYear - 9

def dayOfMonth (dayOfYear : Nat) : Nat := dayOfYear - (153 * marchMonth dayOfYear + 2) / 5 + 1

def dayOfYear (day : Nat) : Nat := day % 146097 - daysBefore (yearOfEra (day % 146097))

/-- The year, which begins in January. -/
def yearOf (day : Nat) : Nat :=
  day / 146097 * 400 + yearOfEra (day % 146097) + if monthOf (dayOfYear day) ≤ 2 then 1 else 0

section Year

/-- The last day of an era is also the last one of a century. -/
theorem era_step (d : Nat) :
    (d + 1) / 146096 + d / 36524 ≤ d / 146096 + (d + 1) / 36524 := by
  have hera : d / 146096 = d / 36524 / 4 := (Nat.div_div_eq_div_mul d 36524 4).symm
  have hera' : (d + 1) / 146096 = (d + 1) / 36524 / 4 :=
    (Nat.div_div_eq_div_mul (d + 1) 36524 4).symm
  have hcentury : (d + 1) / 36524 = d / 36524 ∨ (d + 1) / 36524 = d / 36524 + 1 := by omega
  omega

theorem yearOfEra_mono : Monotone yearOfEra := by
  refine monotone_nat_of_le_succ fun d => Nat.div_le_div_right ?_
  have hstep := era_step d
  have hleap : (d + 1) / 1460 ≤ d / 1460 + 1 := by omega
  have hle : d / 1460 ≤ d := Nat.div_le_self _ _
  have hcentury : d / 146096 ≤ d / 36524 := Nat.div_le_div_left (by omega) (by omega)
  generalize d / 1460 = a, (d + 1) / 1460 = a', d / 36524 = b, (d + 1) / 36524 = b',
    d / 146096 = e, (d + 1) / 146096 = e' at *
  omega

theorem yearOfEra_lt {d : Nat} (h : d < 146097) : yearOfEra d < 400 := by
  unfold yearOfEra
  omega

theorem yearOfEra_daysBefore : ∀ y < 400, yearOfEra (daysBefore y) = y := by decide +kernel

theorem yearOfEra_before : ∀ y < 400, yearOfEra (daysBefore (y + 1) - 1) = y := by
  decide +kernel

theorem daysBefore_succ : ∀ y < 400, daysBefore y < daysBefore (y + 1) ∧
    daysBefore (y + 1) ≤ daysBefore y + 366 := by
  decide +kernel

/-- The day of an era lies in its year. -/
theorem daysBefore_yearOfEra {d : Nat} (h : d < 146097) :
    daysBefore (yearOfEra d) ≤ d ∧ d ≤ daysBefore (yearOfEra d) + 365 := by
  have hy := yearOfEra_lt h
  constructor
  · by_contra hlt
    obtain ⟨y, hyear⟩ : ∃ y, yearOfEra d = y + 1 := by
      refine Nat.exists_eq_succ_of_ne_zero fun hzero => ?_
      rw [hzero] at hlt
      exact hlt (Nat.zero_le d)
    have hle := yearOfEra_mono (show d ≤ daysBefore (y + 1) - 1 by rw [hyear] at hlt; omega)
    rw [yearOfEra_before y (by omega), hyear] at hle
    omega
  · by_contra hlt
    have hnext := daysBefore_succ (yearOfEra d) hy
    by_cases hlast : yearOfEra d = 399
    · rw [hlast] at hlt
      have hdays : daysBefore 399 = 145731 := rfl
      omega
    · have hle := yearOfEra_mono (show daysBefore (yearOfEra d + 1) ≤ d by omega)
      rw [yearOfEra_daysBefore _ (by omega)] at hle
      omega

end Year

/-! ## A date has one day -/

theorem dayOfYear_le (day : Nat) : dayOfYear day ≤ 365 := by
  have hyear := (daysBefore_yearOfEra (Nat.mod_lt day (by decide : 0 < 146097))).2
  unfold dayOfYear
  omega

/-- A month and its day tell the day of the year. -/
theorem dayOfYear_inj {n n' : Nat} (hn : n ≤ 365) (hn' : n' ≤ 365)
    (hmonth : monthOf n = monthOf n') (hday : dayOfMonth n = dayOfMonth n') : n = n' := by
  have hmarch : marchMonth n = marchMonth n' := by
    unfold monthOf at hmonth
    have hlt : marchMonth n < 12 ∧ marchMonth n' < 12 := by
      unfold marchMonth
      omega
    split at hmonth <;> split at hmonth <;> omega
  have hle : (153 * marchMonth n + 2) / 5 ≤ n ∧ (153 * marchMonth n' + 2) / 5 ≤ n' := by
    unfold marchMonth
    omega
  unfold dayOfMonth at hday
  rw [hmarch] at hday hle
  omega

/-- The year, the month and the day of the month tell the day. -/
theorem civil_inj {day day' : Nat} (hyear : yearOf day = yearOf day')
    (hmonth : monthOf (dayOfYear day) = monthOf (dayOfYear day'))
    (hday : dayOfMonth (dayOfYear day) = dayOfMonth (dayOfYear day')) : day = day' := by
  have hdays := dayOfYear_inj (dayOfYear_le day) (dayOfYear_le day') hmonth hday
  have hlt : day % 146097 < 146097 ∧ day' % 146097 < 146097 :=
    ⟨Nat.mod_lt _ (by decide), Nat.mod_lt _ (by decide)⟩
  have hera := yearOfEra_lt hlt.1
  have hera' := yearOfEra_lt hlt.2
  unfold yearOf at hyear
  rw [hmonth] at hyear
  have hyears : yearOfEra (day % 146097) = yearOfEra (day' % 146097) := by omega
  have hle := (daysBefore_yearOfEra hlt.1).1
  have hle' := (daysBefore_yearOfEra hlt.2).1
  unfold dayOfYear at hdays
  rw [hyears] at hdays hle
  omega

end TaroTria.Calendar
