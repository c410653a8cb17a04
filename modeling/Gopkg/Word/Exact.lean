import Mathlib.Algebra.Ring.Int.Defs
import Mathlib.Algebra.Ring.Nat
import Mathlib.Data.Int.Init

/-!
# Arithmetic of signed words against that of the integers

An operation of 64 bits is exact when the word holds the integer that it stands for.
-/

namespace Gopkg.Word

variable {a b : Int64} {n : Int}

/-- A signed word of 64 bits holds the integer. -/
def Fits (n : Int) : Prop := -2 ^ 63 ≤ n ∧ n < 2 ^ 63

instance : Decidable (Fits n) := inferInstanceAs (Decidable (_ ∧ _))

theorem fits_toInt (a : Int64) : Fits a.toInt := ⟨a.le_toInt, a.toInt_lt⟩

theorem bmod_eq_iff_fits : n.bmod (2 ^ 64) = n ↔ Fits n := by
  rw [Int.bmod_eq_iff (by decide), Fits, Int.sub_self]
  simp

/-- Past the greatest word the words start again from the smallest one. -/
theorem bmod_of_le (hlo : 2 ^ 63 ≤ n) (hhi : n < 2 ^ 64 + 2 ^ 63) : n.bmod (2 ^ 64) = n - 2 ^ 64 := by
  refine (Int.bmod_eq_iff (by decide)).mpr ⟨by omega, by omega, -1, by omega⟩

theorem lt_zero_iff : a < 0 ↔ a.toInt < 0 := Int64.lt_iff_toInt_lt

theorem eq_minValue_iff : a = Int64.minValue ↔ a.toInt = -2 ^ 63 := by
  rw [← Int64.toInt_inj, Int64.toInt_minValue]

theorem eq_neg_one_iff : a = -1 ↔ a.toInt = -1 := by
  rw [← Int64.toInt_inj]
  rfl

theorem ne_zero_iff : a ≠ 0 ↔ a.toInt ≠ 0 := by
  rw [Ne, ← Int64.toInt_inj]
  rfl

theorem toInt_add_iff : (a + b).toInt = a.toInt + b.toInt ↔ Fits (a.toInt + b.toInt) := by
  rw [Int64.toInt_add, bmod_eq_iff_fits]

theorem toInt_sub_iff : (a - b).toInt = a.toInt - b.toInt ↔ Fits (a.toInt - b.toInt) := by
  rw [Int64.toInt_sub, bmod_eq_iff_fits]

theorem toInt_mul_iff : (a * b).toInt = a.toInt * b.toInt ↔ Fits (a.toInt * b.toInt) := by
  rw [Int64.toInt_mul, bmod_eq_iff_fits]

/-- The smallest word has no opposite. -/
theorem toInt_neg_iff : (-a).toInt = -a.toInt ↔ a ≠ Int64.minValue := by
  have hlo := a.le_toInt
  have hhi := a.toInt_lt
  rw [Int64.toInt_neg, bmod_eq_iff_fits, Ne, eq_minValue_iff, Fits]
  omega

theorem neg_minValue : -Int64.minValue = Int64.minValue := by decide

/-- The smallest word by `-1` is the only quotient that is not exact. -/
theorem toInt_div_iff : (a / b).toInt = a.toInt.tdiv b.toInt ↔ ¬ (a = Int64.minValue ∧ b = -1) := by
  constructor
  · rintro h ⟨rfl, rfl⟩
    exact absurd h (by decide)
  · intro h
    by_cases ha : a = Int64.minValue
    · exact Int64.toInt_div_of_ne_right a b fun hb => h ⟨ha, hb⟩
    · exact Int64.toInt_div_of_ne_left a b ha

/-- A negative quotient, rounded toward zero, is negative when the dividend reaches the divisor. -/
theorem tdiv_neg_iff {d : Int} (hn : n < 0) (hd : 0 < d) : n.tdiv d < 0 ↔ d ≤ -n := by
  have hquotient : n.tdiv d = -(-n / d) := by
    rw [← Int.tdiv_eq_ediv_of_nonneg (Int.neg_nonneg_of_nonpos (Int.le_of_lt hn)), Int.neg_tdiv, Int.neg_neg]
  have hone := Int.le_ediv_iff_mul_le hd (a := 1) (b := -n)
  rw [Int.one_mul] at hone
  rw [hquotient, ← hone]
  omega

theorem fits_of_tdiv_eq (hb : b.toInt ≠ 0) (hquotient : (a * b).toInt.tdiv b.toInt = a.toInt) :
    Fits (a.toInt * b.toInt) := by
  have hblo := b.le_toInt
  have hbhi := b.toInt_lt
  have hdivision := Int.mul_tdiv_add_tmod (a * b).toInt b.toInt
  have hremainder : ((a * b).toInt.tmod b.toInt).natAbs < b.toInt.natAbs := by
    rw [Int.natAbs_tmod]
    exact Nat.mod_lt _ (Int.natAbs_pos.mpr hb)
  have hwrap := Int.bmod_add_bdiv (a.toInt * b.toInt) (2 ^ 64)
  rw [hquotient, Int.mul_comm] at hdivision
  rw [← Int64.toInt_mul] at hwrap
  -- the product and its word differ by the remainder, which is less than `2 ^ 63`
  rw [← bmod_eq_iff_fits, ← Int64.toInt_mul]
  omega

/-- Dividing a product back finds out whether it was exact, but for the smallest word by `-1`. -/
theorem mul_div_eq_iff (hb : b ≠ 0) :
    a * b / b = a ↔ Fits (a.toInt * b.toInt) ∨ (a = Int64.minValue ∧ b = -1) := by
  rw [← Int64.toInt_inj]
  constructor
  · intro hquotient
    by_cases hmin : a * b = Int64.minValue ∧ b = -1
    · rw [hmin.1, hmin.2] at hquotient
      exact .inr ⟨(Int64.toInt_inj.mp hquotient).symm, hmin.2⟩
    · rw [toInt_div_iff.mpr hmin] at hquotient
      exact .inl (fits_of_tdiv_eq (ne_zero_iff.mp hb) hquotient)
  · rintro (hfits | ⟨rfl, rfl⟩)
    · have hmul := toInt_mul_iff.mpr hfits
      have hmin : ¬ (a * b = Int64.minValue ∧ b = -1) := by
        rintro ⟨hmin, rfl⟩
        have hhi := a.toInt_lt
        rw [hmin, Int64.toInt_minValue, show (-1 : Int64).toInt = -1 from rfl] at hmul
        omega
      rw [toInt_div_iff.mpr hmin, hmul, Int.mul_tdiv_cancel _ (ne_zero_iff.mp hb)]
    · decide

end Gopkg.Word
