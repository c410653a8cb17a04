import Mathlib.Algebra.Order.Field.Rat
import Mathlib.Algebra.Order.Floor.Ring
import Mathlib.Algebra.Ring.Parity
import Mathlib.Data.Int.Log
import Mathlib.Data.Rat.Floor
import Mathlib.Tactic.Linarith
import Mathlib.Tactic.Positivity

/-!
# Rounding to a binary format

The nearest number of a binary format to a rational that is not negative, with ties to even. The least normal number
bounds the unit in the last place from below, and so the numbers below it are covered by the same definition.
-/

namespace Gopkg.Float

/-! ## Integers -/

/-- The nearest integer, and the even one of two. -/
def halfEven (q : ℚ) : ℤ :=
  if q - ⌊q⌋ < 1 / 2 ∨ (q - ⌊q⌋ = 1 / 2 ∧ Even ⌊q⌋) then ⌊q⌋ else ⌊q⌋ + 1

variable {q r : ℚ} {n : ℤ}

theorem abs_halfEven_sub_le (q : ℚ) : |(halfEven q : ℚ) - q| ≤ 1 / 2 := by
  have hfloor := Int.floor_le q
  have hceil := Int.lt_floor_add_one q
  unfold halfEven
  split
  next h =>
    have hle : q - ⌊q⌋ ≤ 1 / 2 := by
      rcases h with h | ⟨h, _⟩
      · exact h.le
      · exact h.le
    rw [abs_sub_comm, abs_of_nonneg (by linarith)]
    exact hle
  next h =>
    rw [not_or, not_lt] at h
    rw [Int.cast_add, Int.cast_one, abs_of_nonneg (by linarith)]
    linarith [h.1]

theorem halfEven_eq_of_abs_lt (h : |q - n| < 1 / 2) : halfEven q = n := by
  have herr := abs_halfEven_sub_le q
  rw [abs_lt] at h
  rw [abs_le] at herr
  have hlo : (halfEven q : ℚ) - n < 1 := by linarith
  have hhi : (n : ℚ) - halfEven q < 1 := by linarith
  have hlo' : halfEven q - n < 1 := by exact_mod_cast hlo
  have hhi' : n - halfEven q < 1 := by exact_mod_cast hhi
  omega

@[simp] theorem halfEven_intCast (n : ℤ) : halfEven n = n :=
  halfEven_eq_of_abs_lt (by simp)

theorem le_halfEven (h : (n : ℚ) ≤ q) : n ≤ halfEven q := by
  have herr := (abs_le.mp (abs_halfEven_sub_le q)).1
  have hlt : (n : ℚ) - 1 < halfEven q := by linarith
  have hlt' : n - 1 < halfEven q := by exact_mod_cast hlt
  omega

theorem halfEven_le (h : q ≤ n) : halfEven q ≤ n := by
  have herr := (abs_le.mp (abs_halfEven_sub_le q)).2
  have hlt : (halfEven q : ℚ) < n + 1 := by linarith
  have hlt' : halfEven q < n + 1 := by exact_mod_cast hlt
  omega

/-! ## Formats -/

/-- The bits of a significand, and the exponent of the least normal power of two. -/
structure Format where
  prec : ℕ
  emin : ℤ
  prec_pos : 0 < prec

namespace Format

variable {f : Format} {e : ℤ} {m : ℤ}

/-- The exponent of the unit in the last place. -/
def unitExp (f : Format) (q : ℚ) : ℤ := max (Int.log 2 q) f.emin - (f.prec - 1)

/-- The unit in the last place. -/
def unit (f : Format) (q : ℚ) : ℚ := 2 ^ f.unitExp q

def nearest (f : Format) (q : ℚ) : ℚ := halfEven (q / f.unit q) * f.unit q

theorem two_zpow_pos (e : ℤ) : (0 : ℚ) < 2 ^ e := zpow_pos (by norm_num) e

theorem unit_pos (f : Format) (q : ℚ) : 0 < f.unit q := two_zpow_pos _

@[simp] theorem nearest_zero : f.nearest 0 = 0 := by
  have hzero : halfEven 0 = 0 := by simpa using halfEven_intCast 0
  rw [nearest, zero_div, hzero, Int.cast_zero, zero_mul]

/-- The error is half a unit at most. -/
theorem abs_nearest_sub_le (f : Format) (q : ℚ) : |f.nearest q - q| ≤ f.unit q / 2 := by
  have hpos := f.unit_pos q
  have hsplit : f.nearest q - q = (halfEven (q / f.unit q) - q / f.unit q) * f.unit q := by
    rw [sub_mul, div_mul_cancel₀ _ hpos.ne', nearest]
  rw [hsplit, abs_mul, abs_of_pos hpos]
  linarith [mul_le_mul_of_nonneg_right (abs_halfEven_sub_le (q / f.unit q)) hpos.le]

theorem nearest_nonneg (hq : 0 ≤ q) : 0 ≤ f.nearest q := by
  have hdiv : ((0 : ℤ) : ℚ) ≤ q / f.unit q := by
    rw [Int.cast_zero]
    exact div_nonneg hq (f.unit_pos q).le
  exact mul_nonneg (Int.cast_nonneg (le_halfEven hdiv)) (f.unit_pos q).le

theorem unit_mul (f : Format) (q : ℚ) : f.unit q * 2 ^ (f.prec - 1) = 2 ^ max (Int.log 2 q) f.emin := by
  have hpos := f.prec_pos
  rw [unit, unitExp, ← zpow_natCast, ← zpow_add₀ (by norm_num)]
  congr 1
  omega

/-- A positive number has `prec` bits down to its unit, unless it is below the least normal number. -/
theorem unit_mul_le (hq : 0 < q) : f.unit q * 2 ^ (f.prec - 1) ≤ max q (2 ^ f.emin) := by
  rw [unit_mul]
  rcases le_total (Int.log 2 q) f.emin with h | h
  · rw [max_eq_right h]
    exact le_max_right _ _
  · rw [max_eq_left h]
    exact le_max_of_le_left (by exact_mod_cast Int.zpow_log_le_self (b := 2) (by norm_num) hq)

theorem lt_unit_mul (f : Format) (q : ℚ) : q < f.unit q * 2 ^ f.prec := by
  have hlog : q < 2 ^ (Int.log 2 q + 1) := by
    exact_mod_cast Int.lt_zpow_succ_log_self (b := 2) (by norm_num) q
  refine hlog.trans_le ?_
  rw [unit, unitExp, ← zpow_natCast, ← zpow_add₀ (by norm_num)]
  refine zpow_le_zpow_right₀ (by norm_num) ?_
  omega

/-! ## Numbers of the format -/

/-- A multiple of a unit that is not finer than its own is its own nearest number. -/
theorem nearest_of_unitExp_le (h : f.unitExp (m * 2 ^ e) ≤ e) : f.nearest (m * 2 ^ e) = m * 2 ^ e := by
  have hint : (m * 2 ^ e : ℚ) / f.unit (m * 2 ^ e) = ((m * 2 ^ (e - f.unitExp (m * 2 ^ e)).toNat : ℤ) : ℚ) := by
    have hcast : ((e - f.unitExp (m * 2 ^ e)).toNat : ℤ) = e - f.unitExp (m * 2 ^ e) := Int.toNat_of_nonneg (by omega)
    rw [unit, mul_div_assoc, ← zpow_sub₀ (by norm_num), ← hcast, zpow_natCast]
    push_cast
    rw [hcast]
  rw [nearest, hint, halfEven_intCast, ← hint, div_mul_cancel₀ _ (f.unit_pos _).ne']

/-- So is a significand of `prec` bits times a unit of the format. -/
theorem nearest_mul_zpow (hm : 0 ≤ m) (hlt : m < 2 ^ f.prec) (he : f.emin - (f.prec - 1) ≤ e) :
    f.nearest (m * 2 ^ e) = m * 2 ^ e := by
  rcases hm.eq_or_lt with rfl | hpos
  · simp
  · refine nearest_of_unitExp_le ?_
    have hq : (0 : ℚ) < m * 2 ^ e := mul_pos (Int.cast_pos.mpr hpos) (two_zpow_pos e)
    have hlog : Int.log 2 (m * 2 ^ e : ℚ) < f.prec + e := by
      refine (Int.lt_zpow_iff_log_lt (by norm_num) hq).mp ?_
      rw [Nat.cast_ofNat, zpow_add₀ (by norm_num), zpow_natCast]
      exact mul_lt_mul_of_pos_right (by exact_mod_cast hlt) (two_zpow_pos e)
    rw [unitExp]
    omega

theorem nearest_eq (f : Format) (q : ℚ) : f.nearest q = halfEven (q / f.unit q) * 2 ^ f.unitExp q := rfl

theorem emin_le_unitExp (f : Format) (q : ℚ) : f.emin - (f.prec - 1) ≤ f.unitExp q := by
  rw [unitExp]
  omega

theorem halfEven_div_unit_le (f : Format) (q : ℚ) : halfEven (q / f.unit q) ≤ 2 ^ f.prec := by
  refine halfEven_le ?_
  rw [Int.cast_pow, Int.cast_ofNat, div_le_iff₀ (f.unit_pos q), mul_comm]
  exact (f.lt_unit_mul q).le

theorem halfEven_div_unit_nonneg (hq : 0 ≤ q) : 0 ≤ halfEven (q / f.unit q) := by
  refine le_halfEven ?_
  rw [Int.cast_zero]
  exact div_nonneg hq (f.unit_pos q).le

/-- What was rounded is a number of the format. -/
theorem nearest_nearest (hq : 0 ≤ q) : f.nearest (f.nearest q) = f.nearest q := by
  have hprec := f.prec_pos
  have hexp := f.emin_le_unitExp q
  rw [nearest_eq f q]
  rcases (halfEven_div_unit_le f q).lt_or_eq with hlt | heq
  · exact nearest_mul_zpow (halfEven_div_unit_nonneg hq) hlt hexp
  · -- the significand has overflowed to the next power of two
    have hnext : ((2 ^ f.prec : ℤ) : ℚ) * 2 ^ f.unitExp q = ((2 ^ (f.prec - 1) : ℤ) : ℚ) * 2 ^ (f.unitExp q + 1) := by
      rw [zpow_add_one₀ (by norm_num), ← Nat.sub_add_cancel hprec, pow_succ]
      push_cast
      ring
    rw [heq, hnext]
    refine nearest_mul_zpow (by positivity) (pow_lt_pow_right₀ (by norm_num) (by omega)) (by omega)

/-- Less than half a unit away from a number that is no power of two, there is no other number as near. -/
theorem nearest_eq_of_abs_lt (hlo : 2 ^ (f.prec - 1) < m) (hhi : m < 2 ^ f.prec) (he : f.emin - (f.prec - 1) ≤ e)
    (hr : |r - m * 2 ^ e| < 2 ^ e / 2) : f.nearest r = m * 2 ^ e := by
  have hprec := f.prec_pos
  have hpos := two_zpow_pos e
  obtain ⟨hgt, hlt⟩ := abs_lt.mp hr
  have hlo' : ((2 ^ (f.prec - 1) : ℤ) : ℚ) + 1 ≤ m := by exact_mod_cast hlo
  have hhi' : (m : ℚ) + 1 ≤ ((2 ^ f.prec : ℤ) : ℚ) := by exact_mod_cast hhi
  push_cast at hlo' hhi'
  have hlower : (2 : ℚ) ^ (f.prec - 1) * 2 ^ e < r := by nlinarith
  have hupper : r < (2 : ℚ) ^ f.prec * 2 ^ e := by nlinarith
  rw [← zpow_natCast, ← zpow_add₀ (by norm_num)] at hlower hupper
  have hrpos : 0 < r := (two_zpow_pos _).trans hlower
  have hexp : f.unitExp r = e := by
    have hge : ((f.prec - 1 : ℕ) : ℤ) + e ≤ Int.log 2 r :=
      (Int.zpow_le_iff_le_log (by norm_num) hrpos).mp (by exact_mod_cast hlower.le)
    have hle : Int.log 2 r < (f.prec : ℤ) + e :=
      (Int.lt_zpow_iff_log_lt (by norm_num) hrpos).mp (by exact_mod_cast hupper)
    rw [unitExp]
    omega
  have hquotient : |r / 2 ^ e - m| < 1 / 2 := by
    rw [div_sub' hpos.ne', mul_comm, abs_div, abs_of_pos hpos, div_lt_iff₀ hpos]
    linarith
  rw [nearest_eq, unit, hexp, halfEven_eq_of_abs_lt hquotient]

end Format

end Gopkg.Float
