import Mathlib.Algebra.Order.Round
import Mathlib.Data.Int.Log
import Mathlib.Data.Rat.Floor
import Mathlib.Tactic.Linarith
import Mathlib.Tactic.Positivity

/-!
Floating point numbers of 53 bits: the number nearest to a rational one, ties to even,
where the exponent neither overflows nor underflows.
-/

namespace Rtt.BinaryFloat

/-- The nearest integer, and of two the even one. -/
def roundEven (x : ℚ) : ℤ := if Even ⌊x⌋ then ⌈x - 1 / 2⌉ else ⌊x + 1 / 2⌋

/-- The distance of the floating point numbers around `x`. -/
def spacing (x : ℚ) : ℚ := 2 ^ (Int.log 2 |x| - 52)

/-- The nearest number of 53 significant bits. -/
def nearest (x : ℚ) : ℚ := roundEven (x / spacing x) * spacing x

/-- The cast of a number that is at least zero to a 64-bit integer. -/
def toWord (x : ℚ) : ℕ := min ⌊x⌋₊ (2 ^ 64 - 1)

section Rounding

theorem abs_roundEven_sub_le (x : ℚ) : |(roundEven x : ℚ) - x| ≤ 1 / 2 := by
  rw [roundEven, abs_le]
  split
  · have hlow := Int.le_ceil (x - 1 / 2)
    have hhigh := Int.ceil_lt_add_one (x - 1 / 2)
    constructor <;> linarith
  · have hlow := Int.lt_floor_add_one (x + 1 / 2)
    have hhigh := Int.floor_le (x + 1 / 2)
    constructor <;> linarith

theorem roundEven_mono {x y : ℚ} (h : x ≤ y) : roundEven x ≤ roundEven y := by
  by_contra hless
  have hstep : (roundEven y : ℚ) + 1 ≤ roundEven x := by exact_mod_cast not_le.mp hless
  have hx := (abs_le.mp (abs_roundEven_sub_le x)).2
  have hy := (abs_le.mp (abs_roundEven_sub_le y)).1
  obtain rfl : x = y := by linarith
  exact hless le_rfl

theorem roundEven_intCast (n : ℤ) : roundEven n = n := by
  have hclose := abs_le.mp (abs_roundEven_sub_le n)
  have hlow : n < roundEven n + 1 := by
    have hcast : (n : ℚ) < roundEven n + 1 := by linarith
    exact_mod_cast hcast
  have hhigh : roundEven n < n + 1 := by
    have hcast : (roundEven n : ℚ) < n + 1 := by linarith
    exact_mod_cast hcast
  omega

end Rounding

section Nearest

variable {x y : ℚ}

theorem spacing_pos (x : ℚ) : 0 < spacing x := zpow_pos (by norm_num) _

theorem two_pow_log (x : ℚ) (k : ℤ) :
    (2 : ℚ) ^ (Int.log 2 |x| + k) = 2 ^ (52 + k) * spacing x := by
  rw [spacing, ← zpow_add₀ (by norm_num)]
  congr 1
  ring

theorem le_of_spacing (hx : 0 < x) : 2 ^ 52 * spacing x ≤ x := by
  have hlog := Int.zpow_log_le_self (b := 2) (by norm_num) (abs_pos.mpr hx.ne')
  have hpow := two_pow_log x 0
  rw [abs_of_pos hx] at hlog hpow
  rw [add_zero] at hpow
  calc 2 ^ 52 * spacing x = 2 ^ (Int.log 2 x) := hpow.symm
    _ ≤ x := by exact_mod_cast hlog

theorem lt_of_spacing (hx : 0 < x) : x < 2 ^ 53 * spacing x := by
  have hlog := Int.lt_zpow_succ_log_self (b := 2) (by norm_num) |x|
  have hpow := two_pow_log x 1
  rw [abs_of_pos hx] at hlog hpow
  calc x < 2 ^ (Int.log 2 x + 1) := by exact_mod_cast hlog
    _ = 2 ^ 53 * spacing x := by rw [hpow]; norm_num

theorem nearest_zero : nearest 0 = 0 := by
  have hzero : roundEven 0 = 0 := roundEven_intCast 0
  rw [nearest, zero_div, hzero, Int.cast_zero, zero_mul]

theorem nearest_of_integer {n : ℤ} (h : x = n * spacing x) : nearest x = x := by
  have hdiv : x / spacing x = n := by
    rw [div_eq_iff (spacing_pos x).ne']
    exact h
  rw [nearest, hdiv, roundEven_intCast]
  exact h.symm

theorem abs_nearest_sub_le (hx : 0 ≤ x) : |nearest x - x| ≤ x / 2 ^ 53 := by
  rcases hx.eq_or_lt with rfl | hpos
  · rw [nearest_zero]
    norm_num
  · have hspacing := spacing_pos x
    have hsplit : nearest x - x = (roundEven (x / spacing x) - x / spacing x) * spacing x := by
      rw [sub_mul, div_mul_cancel₀ _ hspacing.ne', nearest]
    calc |nearest x - x|
        = |(roundEven (x / spacing x) : ℚ) - x / spacing x| * spacing x := by
          rw [hsplit, abs_mul, abs_of_pos hspacing]
      _ ≤ 1 / 2 * spacing x :=
          mul_le_mul_of_nonneg_right (abs_roundEven_sub_le _) hspacing.le
      _ = 2 ^ 52 * spacing x / 2 ^ 53 := by ring
      _ ≤ x / 2 ^ 53 := div_le_div_of_nonneg_right (le_of_spacing hpos) (by positivity)

theorem nearest_le (hx : 0 ≤ x) : nearest x ≤ x * (1 + 1 / 2 ^ 53) := by
  have hclose := (abs_le.mp (abs_nearest_sub_le hx)).2
  linarith

theorem le_nearest (hx : 0 ≤ x) : x * (1 - 1 / 2 ^ 53) ≤ nearest x := by
  have hclose := (abs_le.mp (abs_nearest_sub_le hx)).1
  linarith

theorem two_pow_le_nearest (hx : 0 < x) : 2 ^ 52 * spacing x ≤ nearest x := by
  have hscaled : ((2 ^ 52 : ℤ) : ℚ) ≤ x / spacing x := by
    rw [le_div_iff₀ (spacing_pos x)]
    exact_mod_cast le_of_spacing hx
  have hrounded := roundEven_mono hscaled
  rw [roundEven_intCast] at hrounded
  refine mul_le_mul_of_nonneg_right ?_ (spacing_pos x).le
  exact_mod_cast hrounded

theorem nearest_le_two_pow (hx : 0 < x) : nearest x ≤ 2 ^ 53 * spacing x := by
  have hscaled : x / spacing x ≤ ((2 ^ 53 : ℤ) : ℚ) := by
    rw [div_le_iff₀ (spacing_pos x)]
    exact_mod_cast (lt_of_spacing hx).le
  have hrounded := roundEven_mono hscaled
  rw [roundEven_intCast] at hrounded
  refine mul_le_mul_of_nonneg_right ?_ (spacing_pos x).le
  exact_mod_cast hrounded

theorem nearest_nonneg (hx : 0 ≤ x) : 0 ≤ nearest x := by
  rcases hx.eq_or_lt with rfl | hpos
  · exact nearest_zero.ge
  · exact (mul_pos (by norm_num) (spacing_pos x)).le.trans (two_pow_le_nearest hpos)

theorem nearest_mono (hx : 0 ≤ x) (h : x ≤ y) : nearest x ≤ nearest y := by
  rcases hx.eq_or_lt with rfl | hpos
  · rw [nearest_zero]
    exact nearest_nonneg h
  · have hy := hpos.trans_le h
    have hlog : Int.log 2 |x| ≤ Int.log 2 |y| := by
      rw [abs_of_pos hpos, abs_of_pos hy]
      exact Int.log_mono_right hpos h
    rcases hlog.eq_or_lt with hsame | hless
    · have hspacing : spacing x = spacing y := by rw [spacing, spacing, hsame]
      rw [nearest, nearest, hspacing]
      refine mul_le_mul_of_nonneg_right ?_ (spacing_pos y).le
      exact_mod_cast roundEven_mono (div_le_div_of_nonneg_right h (spacing_pos y).le)
    · calc nearest x ≤ 2 ^ 53 * spacing x := nearest_le_two_pow hpos
        _ = 2 ^ (Int.log 2 |x| + 1) := by rw [two_pow_log]; norm_num
        _ ≤ 2 ^ (Int.log 2 |y| + 0) := zpow_le_zpow_right₀ (by norm_num) (by omega)
        _ = 2 ^ 52 * spacing y := by rw [two_pow_log]; norm_num
        _ ≤ nearest y := two_pow_le_nearest hy

theorem nearest_lt (hx : 0 ≤ x) (hapart : x + y < 2 ^ 53 * (y - x)) : nearest x < nearest y := by
  have hless : x ≤ y := by linarith
  calc nearest x ≤ x * (1 + 1 / 2 ^ 53) := nearest_le hx
    _ < y * (1 - 1 / 2 ^ 53) := by linarith
    _ ≤ nearest y := le_nearest (hx.trans hless)

theorem nearest_of_dyadic (m : ℕ) (k : ℤ) (hm : m < 2 ^ 53) :
    nearest (m * 2 ^ k) = m * 2 ^ k := by
  rcases m.eq_zero_or_pos with rfl | hpos
  · rw [Nat.cast_zero, zero_mul, nearest_zero]
  · have hscaled : (0 : ℚ) < 2 ^ k := zpow_pos (by norm_num) k
    have hx : (0 : ℚ) < m * 2 ^ k := mul_pos (Nat.cast_pos.mpr hpos) hscaled
    have hlog : Int.log 2 |(m : ℚ) * 2 ^ k| < 53 + k := by
      rw [abs_of_pos hx, ← Int.lt_zpow_iff_log_lt (by norm_num) hx, Nat.cast_ofNat,
        zpow_add₀ (by norm_num)]
      refine mul_lt_mul_of_pos_right ?_ hscaled
      exact_mod_cast hm
    obtain ⟨j, hj⟩ := Int.eq_ofNat_of_zero_le (a := 52 + k - Int.log 2 |(m : ℚ) * 2 ^ k|)
      (by omega)
    have hscale : (2 : ℚ) ^ k = 2 ^ j * spacing (m * 2 ^ k) := by
      rw [spacing, ← zpow_natCast, ← zpow_add₀ (by norm_num)]
      congr 1
      omega
    have hinteger : (m : ℚ) * 2 ^ k = ((m * 2 ^ j : ℕ) : ℤ) * spacing (m * 2 ^ k) := by
      push_cast
      rw [mul_assoc, ← hscale]
    exact nearest_of_integer hinteger

theorem nearest_natCast {n : ℕ} (hn : n < 2 ^ 53) : nearest n = n := by
  have hexact := nearest_of_dyadic n 0 hn
  rwa [zpow_zero, mul_one] at hexact

end Nearest

end Rtt.BinaryFloat
