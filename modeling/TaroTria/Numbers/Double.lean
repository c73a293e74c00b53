import Mathlib.Algebra.Order.Round
import Mathlib.Data.Int.Log
import Mathlib.Data.Rat.Floor
import Mathlib.Tactic.Linarith
import Mathlib.Tactic.NormNum
import Mathlib.Tactic.Ring

/-!
# Rounding to doubles

The double that is nearest to a rational number, as a rational number. A double
has 53 bits, and of two doubles that are as near the even one is taken.

## Implementation notes

The range of the exponents is left out: nothing here overflows or is subnormal.
-/

namespace TaroTria.Double

/-- The nearest integer, and the even one of two that are as near. -/
def nearest (x : ℚ) : ℤ := if Int.fract x = 1 / 2 then ⌊x⌋ + ⌊x⌋ % 2 else round x

/-- The distance of the doubles of the size of `q`. -/
def ulp (q : ℚ) : ℚ := 2 ^ (Int.log 2 |q| - 52)

/-- The double nearest to `q`. -/
def toDouble (q : ℚ) : ℚ := nearest (q / ulp q) * ulp q

/-- The quotient of two doubles. -/
def divide (a b : ℚ) : ℚ := toDouble (a / b)

section Nearest

variable {x : ℚ} {n : ℤ}

theorem abs_sub_nearest (x : ℚ) : |x - nearest x| ≤ 1 / 2 := by
  unfold nearest
  split
  · rename_i hhalf
    have hx : x = ⌊x⌋ + 1 / 2 := by rw [← hhalf, Int.floor_add_fract]
    rcases Int.emod_two_eq_zero_or_one ⌊x⌋ with heven | hodd
    · rw [heven, add_zero, abs_of_nonneg] <;> linarith
    · rw [hodd, Int.cast_add, Int.cast_one, abs_of_nonpos] <;> linarith
  · exact abs_sub_round x

@[simp] theorem nearest_intCast (n : ℤ) : nearest n = n := by
  simp [nearest]

/-- Rounding does not cross an integer. -/
theorem nearest_le (h : x ≤ n) : nearest x ≤ n := by
  have herror := (abs_le.mp (abs_sub_nearest x)).1
  have hlt : (nearest x : ℚ) < (n + 1 : ℤ) := by
    rw [Int.cast_add, Int.cast_one]
    linarith
  exact Int.lt_add_one_iff.mp (Int.cast_lt.mp hlt)

theorem le_nearest (h : n ≤ x) : n ≤ nearest x := by
  have herror := (abs_le.mp (abs_sub_nearest x)).2
  have hlt : (n : ℚ) < (nearest x + 1 : ℤ) := by
    rw [Int.cast_add, Int.cast_one]
    linarith
  exact Int.lt_add_one_iff.mp (Int.cast_lt.mp hlt)

end Nearest

variable {q : ℚ}

theorem ulp_pos (q : ℚ) : 0 < ulp q := zpow_pos two_pos _

/-- A number has at most 53 bits of its size before the point. -/
theorem abs_lt_ulp (q : ℚ) : |q| < 2 ^ 53 * ulp q := by
  have hlt := Int.lt_zpow_succ_log_self (R := ℚ) one_lt_two |q|
  have hpow : (2 : ℚ) ^ 53 * ulp q = 2 ^ (Int.log 2 |q| + 1) := by
    rw [ulp, ← zpow_natCast, ← zpow_add₀ two_ne_zero]
    congr 1
    push_cast
    ring
  rw [hpow]
  exact_mod_cast hlt

theorem abs_toDouble_sub (q : ℚ) : |toDouble q - q| ≤ ulp q / 2 := by
  have hpos := ulp_pos q
  have hscaled : toDouble q - q = -(q / ulp q - nearest (q / ulp q)) * ulp q := by
    rw [toDouble, neg_sub, sub_mul, div_mul_cancel₀ q hpos.ne']
  rw [hscaled, abs_mul, abs_neg, abs_of_pos hpos]
  calc |q / ulp q - nearest (q / ulp q)| * ulp q
      ≤ 1 / 2 * ulp q := mul_le_mul_of_nonneg_right (abs_sub_nearest _) hpos.le
    _ = ulp q / 2 := by ring

theorem toDouble_nonneg (h : 0 ≤ q) : 0 ≤ toDouble q := by
  have hscaled : ((0 : ℤ) : ℚ) ≤ q / ulp q := by
    rw [Int.cast_zero]
    exact div_nonneg h (ulp_pos q).le
  exact mul_nonneg (Int.cast_nonneg (le_nearest hscaled)) (ulp_pos q).le

@[simp] theorem toDouble_zero : toDouble 0 = 0 := by
  rw [toDouble, zero_div, ← Int.cast_zero, nearest_intCast, Int.cast_zero, zero_mul]

@[simp] theorem toDouble_one : toDouble 1 = 1 := by
  have hulp : ulp 1 = 2 ^ (-52 : ℤ) := by
    rw [ulp, abs_one, Int.log_one_right, zero_sub]
  have hscaled : (1 : ℚ) / ulp 1 = ((2 ^ 52 : ℤ) : ℚ) := by
    rw [hulp]
    norm_num
  rw [toDouble, hscaled, nearest_intCast, hulp]
  norm_num

theorem log_lt_zero (h₀ : 0 < q) (h₁ : q < 1) : Int.log 2 q < 0 := by
  have hle := Int.zpow_log_le_self (R := ℚ) one_lt_two h₀
  have hlt : ((2 : ℕ) : ℚ) ^ Int.log 2 q < ((2 : ℕ) : ℚ) ^ (0 : ℤ) := by
    rw [zpow_zero]
    exact hle.trans_lt h₁
  exact (zpow_lt_zpow_iff_right₀ (by norm_num)).mp hlt

/-- Below one, doubles are at most `2 ^ -53` apart. -/
theorem ulp_le (h₀ : 0 < q) (h₁ : q < 1) : ulp q ≤ 1 / 2 ^ 53 := by
  have hlog := log_lt_zero h₀ h₁
  calc ulp q = 2 ^ (Int.log 2 q - 52) := by rw [ulp, abs_of_pos h₀]
    _ ≤ (2 : ℚ) ^ (-53 : ℤ) := zpow_le_zpow_right₀ one_le_two (by omega)
    _ = 1 / 2 ^ 53 := by norm_num

/-- Between zero and one, rounding moves a number by `2 ^ -54` at most. -/
theorem abs_toDouble_sub_le (h₀ : 0 ≤ q) (h₁ : q ≤ 1) : |toDouble q - q| ≤ 1 / 2 ^ 54 := by
  rcases h₁.eq_or_lt with rfl | h₁
  · norm_num
  rcases h₀.eq_or_lt with rfl | h₀
  · norm_num
  have herror := abs_toDouble_sub q
  have hulp := ulp_le h₀ h₁
  have hhalf : (1 : ℚ) / 2 ^ 54 = 1 / 2 ^ 53 / 2 := by norm_num
  linarith

theorem toDouble_le_one (h₀ : 0 ≤ q) (h₁ : q ≤ 1) : toDouble q ≤ 1 := by
  rcases h₁.eq_or_lt with rfl | h₁
  · exact toDouble_one.le
  rcases h₀.eq_or_lt with rfl | h₀
  · rw [toDouble_zero]
    exact zero_le_one
  -- The 53 bits are enough for the next power of two, which is at most one.
  have hbits : q / ulp q ≤ ((2 ^ 53 : ℤ) : ℚ) := by
    rw [div_le_iff₀ (ulp_pos q)]
    have hlt := abs_lt_ulp q
    rw [abs_of_pos h₀] at hlt
    exact_mod_cast hlt.le
  have hnearest : (nearest (q / ulp q) : ℚ) ≤ 2 ^ 53 := by exact_mod_cast nearest_le hbits
  calc toDouble q ≤ 2 ^ 53 * ulp q := mul_le_mul_of_nonneg_right hnearest (ulp_pos q).le
    _ ≤ 2 ^ 53 * (1 / 2 ^ 53) := mul_le_mul_of_nonneg_left (ulp_le h₀ h₁) (by norm_num)
    _ = 1 := by norm_num

end TaroTria.Double
