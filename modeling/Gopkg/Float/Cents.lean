import Gopkg.Float.Nearest
import Mathlib.Tactic.NormNum

/-!
# Doubles and hundredths

A number of few decimal digits goes to the nearest double, that double to the nearest hundredth, and that hundredth to
its nearest double. The two doubles are the same exactly when the number was a whole number of hundredths.
-/

namespace Gopkg.Float

open Format

def binary64 : Format := ⟨53, -1022, by decide⟩

/-- The nearest whole number of hundredths. -/
def cents (q : ℚ) : ℤ := halfEven (100 * q)

variable {x r v : ℚ} {n : ℤ}

theorem abs_cents_sub_le (q : ℚ) : |(cents q : ℚ) / 100 - q| ≤ 1 / 200 := by
  have herr := abs_le.mp (abs_halfEven_sub_le (100 * q))
  rw [cents, abs_le]
  constructor
  · linarith [herr.1]
  · linarith [herr.2]

theorem cents_eq_of_abs_lt (hx : 100 * x = n) (h : |v - x| < 1 / 200) : cents v = n := by
  refine halfEven_eq_of_abs_lt ?_
  rw [← hx, ← mul_sub, abs_mul, abs_of_pos (by norm_num : (0 : ℚ) < 100)]
  linarith

/-! ## Whole numbers of hundredths -/

theorem cents_of_whole (hv : 100 * v = n) : (cents v : ℚ) / 100 = v := by
  rw [cents, hv, halfEven_intCast, ← hv, mul_div_cancel_left₀ _ (by norm_num)]

theorem cents_two_zpow {j : ℤ} (hj : 0 ≤ j) : (cents (2 ^ j) : ℚ) / 100 = 2 ^ j := by
  refine cents_of_whole (n := 100 * 2 ^ j.toNat) ?_
  rw [← Int.toNat_of_nonneg hj, zpow_natCast, Int.toNat_natCast]
  push_cast
  rfl

/-- The significand of a normal double has its first bit. -/
theorem le_significand (hx : 0 < x) (hunit : -1074 < binary64.unitExp x) :
    2 ^ 52 ≤ halfEven (x / binary64.unit x) := by
  have hmul := binary64.unit_mul x
  have hlog : max (Int.log 2 x) binary64.emin = Int.log 2 x := by
    have hexp : binary64.unitExp x = max (Int.log 2 x) (-1022) - (53 - 1) := rfl
    change max _ (-1022) = _
    omega
  refine le_halfEven ?_
  rw [le_div_iff₀ (binary64.unit_pos x), mul_comm]
  rw [hlog] at hmul
  push_cast
  exact hmul.le.trans (by exact_mod_cast Int.zpow_log_le_self (b := 2) (by norm_num) hx)

/-- A double whose unit is more than a hundredth is the nearest one to its nearest hundredth. -/
theorem nearest_cents_of_unit (hx : 0 < x) (hunit : -6 ≤ binary64.unitExp x) :
    binary64.nearest (cents (binary64.nearest x) / 100) = binary64.nearest x := by
  have hlo := le_significand hx (by omega)
  have hhi := binary64.halfEven_div_unit_le x
  have hself : binary64.nearest (binary64.nearest x) = binary64.nearest x := nearest_nearest hx.le
  have hstep : (1 / 64 : ℚ) ≤ 2 ^ binary64.unitExp x := by
    rw [show (1 / 64 : ℚ) = 2 ^ (-6 : ℤ) by norm_num]
    exact zpow_le_zpow_right₀ (by norm_num) hunit
  rw [nearest_eq binary64 x] at hself ⊢
  generalize halfEven (x / binary64.unit x) = m at hlo hhi hself ⊢
  generalize binary64.unitExp x = e at hunit hself hstep ⊢
  change m ≤ 2 ^ 53 at hhi
  rcases hlo.eq_or_lt with rfl | hlo
  · -- a power of two, which is a whole number
    have hpow : ((2 ^ 52 : ℤ) : ℚ) * 2 ^ e = 2 ^ (52 + e) := by rw [zpow_add₀ (by norm_num)]; norm_num
    rw [hpow] at hself ⊢
    rw [cents_two_zpow (by omega), hself]
  · rcases hhi.eq_or_lt with rfl | hhi
    · have hpow : ((2 ^ 53 : ℤ) : ℚ) * 2 ^ e = 2 ^ (53 + e) := by rw [zpow_add₀ (by norm_num)]; norm_num
      rw [hpow] at hself ⊢
      rw [cents_two_zpow (by omega), hself]
    · refine nearest_eq_of_abs_lt (f := binary64) hlo hhi (by change -1022 - (53 - 1) ≤ e; omega) ?_
      have herr := abs_cents_sub_le (m * 2 ^ e)
      linarith

theorem nearest_cents_of_whole (hx : 0 < x) (hn : 100 * x = n) :
    binary64.nearest (cents (binary64.nearest x) / 100) = binary64.nearest x := by
  have herr := binary64.abs_nearest_sub_le x
  by_cases hnear : |binary64.nearest x - x| < 1 / 200
  · rw [cents_eq_of_abs_lt hn hnear, ← hn, mul_div_cancel_left₀ _ (by norm_num)]
  · refine nearest_cents_of_unit hx ?_
    by_contra hlt
    have hunit : binary64.unit x ≤ 2 ^ (-7 : ℤ) := zpow_le_zpow_right₀ (by norm_num) (by omega)
    rw [show (2 : ℚ) ^ (-7 : ℤ) = 1 / 128 by norm_num] at hunit
    exact hnear (by linarith)

/-! ## Numbers of few digits -/

/-- A number of at most 15 significant digits. -/
def FewDigits (x : ℚ) : Prop := ∃ (m : ℕ) (k : ℤ), m < 10 ^ 15 ∧ |x| = m * 10 ^ k

theorem two_zpow_emin_le : (2 : ℚ) ^ (-1022 : ℤ) ≤ 1 / 400 := by
  refine (zpow_le_zpow_right₀ (by norm_num) (by norm_num : (-1022 : ℤ) ≤ -9)).trans ?_
  norm_num

/-- The error of a number that is large enough to be normal. -/
theorem abs_nearest_sub_le_of_normal (hx : 1 / 400 ≤ x) : |binary64.nearest x - x| ≤ x / 2 ^ 53 := by
  have hpos : 0 < x := lt_of_lt_of_le (by norm_num) hx
  have hmin : (2 : ℚ) ^ (-1022 : ℤ) ≤ x := two_zpow_emin_le.trans hx
  have hunit : binary64.unit x * 2 ^ 52 ≤ max x (2 ^ (-1022 : ℤ)) := unit_mul_le (f := binary64) hpos
  rw [max_eq_left hmin] at hunit
  have herr := binary64.abs_nearest_sub_le x
  rw [le_div_iff₀ (by norm_num)]
  nlinarith

/-- Below `1 / 400` there is no double near a hundredth. -/
theorem le_of_nearest (hx : 0 < x) (hv : 1 / 200 ≤ binary64.nearest x) : 1 / 400 ≤ x := by
  by_contra hlt
  rw [not_le] at hlt
  have hunit : binary64.unit x * 2 ^ 52 ≤ max x (2 ^ (-1022 : ℤ)) := unit_mul_le (f := binary64) hx
  have hmax : max x (2 ^ (-1022 : ℤ)) ≤ 1 / 400 := max_le hlt.le two_zpow_emin_le
  have herr := (abs_le.mp (binary64.abs_nearest_sub_le x)).2
  linarith

/-- Decimals with the same last place are the same when they are less than that place apart. -/
theorem eq_of_abs_sub_lt {m k : ℤ} (hk : k ≤ -2) (h : |m * 10 ^ k - (n : ℚ) / 100| < 10 ^ k) :
    m * 10 ^ k = (n : ℚ) / 100 := by
  have hpos : (0 : ℚ) < 10 ^ k := zpow_pos (by norm_num) k
  have hscale : (n : ℚ) / 100 = ((n * 10 ^ (-2 - k).toNat : ℤ) : ℚ) * 10 ^ k := by
    have hcast : (((-2 - k).toNat : ℕ) : ℤ) = -2 - k := Int.toNat_of_nonneg (by omega)
    push_cast
    rw [← zpow_natCast, hcast, mul_assoc, ← zpow_add₀ (by norm_num), show -2 - k + k = -2 by omega, div_eq_mul_inv]
    norm_num
  rw [hscale, ← sub_mul, abs_mul, abs_of_pos hpos, mul_lt_iff_lt_one_left hpos] at h
  have hzero : |m - n * 10 ^ (-2 - k).toNat| < 1 := by exact_mod_cast h
  rw [hscale, sub_eq_zero.mp (Int.abs_lt_one_iff.mp hzero)]

/-- A decimal with two places at most is a whole number of hundredths. -/
theorem hundred_mul_decimal (m : ℕ) {k : ℤ} (hk : -2 ≤ k) : ∃ n : ℤ, 100 * ((m : ℚ) * 10 ^ k) = n := by
  have hcast : (((k + 2).toNat : ℕ) : ℤ) = k + 2 := Int.toNat_of_nonneg (by omega)
  refine ⟨m * 10 ^ (k + 2).toNat, ?_⟩
  push_cast
  rw [← zpow_natCast, hcast, zpow_add₀ (by norm_num)]
  ring

/-- A double that is found again is not so small that its hundredth is zero. -/
theorem one_le_cents (hv : 0 < v) (h : binary64.nearest (cents v / 100) = v) : 1 ≤ cents v := by
  have hnonneg : 0 ≤ cents v := by
    refine le_halfEven ?_
    rw [Int.cast_zero]
    linarith
  have hne : cents v ≠ 0 := by
    intro hzero
    rw [hzero, Int.cast_zero, zero_div, nearest_zero] at h
    exact hv.ne h
  omega

/-- Numbers with the same double are close to each other, in the last place of the one with few digits. -/
theorem abs_sub_lt_of_nearest {m : ℕ} {k : ℤ} (hm : m < 10 ^ 15) (hx : 1 / 400 ≤ (m : ℚ) * 10 ^ k) (hr : 1 / 400 ≤ r)
    (h : binary64.nearest r = binary64.nearest (m * 10 ^ k)) : |m * 10 ^ k - r| < 10 ^ k := by
  have hpos : (0 : ℚ) < 10 ^ k := zpow_pos (by norm_num) k
  have hlt : (m : ℚ) * 10 ^ k < 10 ^ 15 * 10 ^ k := mul_lt_mul_of_pos_right (by exact_mod_cast hm) hpos
  obtain ⟨hxlo, hxhi⟩ := abs_le.mp (abs_nearest_sub_le_of_normal hx)
  obtain ⟨hrlo, hrhi⟩ := abs_le.mp (abs_nearest_sub_le_of_normal hr)
  rw [h] at hrlo hrhi
  -- both are within `2 ^ -53` of the same double, and `2 * 10 ^ 15 < 2 ^ 53`
  rw [abs_lt]
  constructor
  · linarith
  · linarith

theorem whole_of_nearest_cents (hx : 0 < x) (hfew : FewDigits x) (hv : 0 < binary64.nearest x)
    (h : binary64.nearest (cents (binary64.nearest x) / 100) = binary64.nearest x) : ∃ n : ℤ, 100 * x = n := by
  have hone : (1 : ℚ) ≤ cents (binary64.nearest x) := by exact_mod_cast one_le_cents hv h
  have hcents := abs_le.mp (abs_cents_sub_le (binary64.nearest x))
  have hlarge : 1 / 400 ≤ x := le_of_nearest hx (by linarith)
  obtain ⟨m, k, hm, hdigits⟩ := hfew
  rw [abs_of_pos hx] at hdigits
  subst hdigits
  by_cases hk : -2 ≤ k
  · exact hundred_mul_decimal m hk
  · have hapart := abs_sub_lt_of_nearest hm hlarge (by linarith) h
    refine ⟨cents (binary64.nearest (m * 10 ^ k)), ?_⟩
    generalize cents (binary64.nearest (m * 10 ^ k)) = n at hapart ⊢
    rw [← Int.cast_natCast] at hapart ⊢
    rw [eq_of_abs_sub_lt (by omega) hapart]
    ring

/-- A positive number of few digits is found again exactly when it is a whole number of hundredths. -/
theorem nearest_cents_iff (hx : 0 < x) (hfew : FewDigits x) (hv : 0 < binary64.nearest x) :
    binary64.nearest (cents (binary64.nearest x) / 100) = binary64.nearest x ↔ ∃ n : ℤ, 100 * x = n :=
  ⟨whole_of_nearest_cents hx hfew hv, fun ⟨_, hn⟩ => nearest_cents_of_whole hx hn⟩

end Gopkg.Float
