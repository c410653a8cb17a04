import Mathlib.Data.Nat.Bitwise

/-!
# Small numbers as machine words

A natural number below the sign bit behaves as a signed word the way it does as a number, under masks and shifts too.
The magnitude of a word of 16 bits is such a number in a wider word.
-/

namespace Gopkg.Word

variable {v n k w : Nat} {s : Int16}

/-! ## Bit vectors -/

section BitVectors

theorem toNat_ofNat_small (hv : v < 2 ^ w) : (BitVec.ofNat (w + 1) v).toNat = v := by
  have hlt : v < 2 ^ (w + 1) := by
    rw [Nat.pow_succ]
    omega
  rw [BitVec.toNat_ofNat, Nat.mod_eq_of_lt hlt]

theorem msb_ofNat_small (hv : v < 2 ^ w) : (BitVec.ofNat (w + 1) v).msb = false := by
  rw [BitVec.msb_eq_false_iff_two_mul_lt, toNat_ofNat_small hv, Nat.pow_succ]
  omega

theorem smod_ofNat_small {m : Nat} (hn : n < m) (hm : m < 2 ^ w) :
    (BitVec.ofNat (w + 1) n).smod (BitVec.ofNat (w + 1) m) = BitVec.ofNat (w + 1) n := by
  have hn' := Nat.lt_trans hn hm
  apply BitVec.eq_of_toNat_eq
  rw [BitVec.smod_eq, msb_ofNat_small hn', msb_ofNat_small hm]
  change (_ % _ : BitVec (w + 1)).toNat = _
  rw [BitVec.toNat_umod, toNat_ofNat_small hn', toNat_ofNat_small hm, Nat.mod_eq_of_lt hn]

theorem sshiftRight_ofNat_small (hv : v < 2 ^ w) :
    (BitVec.ofNat (w + 1) v).sshiftRight n = BitVec.ofNat (w + 1) (v >>> n) := by
  apply BitVec.eq_of_toNat_eq
  rw [BitVec.toNat_sshiftRight_of_msb_false (msb_ofNat_small hv), toNat_ofNat_small hv,
    toNat_ofNat_small (Nat.lt_of_le_of_lt (Nat.shiftRight_le ..) hv)]

theorem ofNat_eq_zero_small (hv : v < 2 ^ w) : BitVec.ofNat (w + 1) v = 0 ↔ v = 0 := by
  rw [← BitVec.toNat_inj, toNat_ofNat_small hv]
  simp

end BitVectors

theorem and_two_pow_eq_zero : v &&& 2 ^ k = 0 ↔ v.testBit k = false := by
  rw [Nat.and_two_pow]
  cases v.testBit k <;> simp

/-! ## Words -/

theorem int64_and (v n : Nat) : Int64.ofNat v &&& Int64.ofNat n = Int64.ofNat (v &&& n) :=
  Int64.toBitVec.inj (by simp)

theorem int64_shiftRight (hv : v < 2 ^ 63) (hn : n < 64) :
    Int64.ofNat v >>> Int64.ofNat n = Int64.ofNat (v >>> n) := by
  apply Int64.toBitVec.inj
  have hmod : (BitVec.ofNat 64 n).smod 64 = BitVec.ofNat 64 n := smod_ofNat_small hn (by decide)
  rw [Int64.toBitVec_shiftRight, Int64.toBitVec_ofNat', Int64.toBitVec_ofNat', hmod, BitVec.sshiftRight_eq',
    toNat_ofNat_small (by omega), sshiftRight_ofNat_small hv]
  rfl

theorem int64_and_two_pow (hv : v < 2 ^ 63) : Int64.ofNat v &&& Int64.ofNat (2 ^ k) = 0 ↔ v.testBit k = false := by
  rw [int64_and, ← and_two_pow_eq_zero, ← ofNat_eq_zero_small (Nat.lt_of_le_of_lt Nat.and_le_left hv),
    ← Int64.toBitVec_inj]
  rfl

theorem int64_min {c : Nat} (hv : v < 2 ^ 63) (hc : c < 2 ^ 63) :
    (if Int64.ofNat v > Int64.ofNat c then Int64.ofNat c else Int64.ofNat v) = Int64.ofNat (min v c) := by
  have hlt : Int64.ofNat v > Int64.ofNat c ↔ c < v := Int64.ofNat_lt_iff_lt hc hv
  by_cases h : c < v
  · rw [if_pos (hlt.mpr h), Nat.min_eq_right (Nat.le_of_lt h)]
  · rw [if_neg (hlt.not.mpr h), Nat.min_eq_left (Nat.not_lt.mp h)]

theorem toInt64_lt_zero : s.toInt64 < 0 ↔ s.toInt < 0 := by
  rw [Int64.lt_iff_toInt_lt, Int16.toInt_toInt64]
  rfl

theorem int64_magnitude (s : Int16) :
    (if s.toInt64 < 0 then -s.toInt64 else s.toInt64) = Int64.ofNat s.toInt.natAbs := by
  rw [← Int64.ofInt_int16ToInt, ← Int64.ofInt_eq_ofNat]
  split
  next h =>
    rw [Int64.ofInt_int16ToInt, toInt64_lt_zero] at h
    rw [← Int64.ofInt_neg, Int.ofNat_natAbs_of_nonpos (Int.le_of_lt h)]
  next h =>
    rw [Int64.ofInt_int16ToInt, toInt64_lt_zero] at h
    rw [Int.natAbs_of_nonneg (Int.not_lt.mp h)]

theorem int32_and (v n : Nat) : Int32.ofNat v &&& Int32.ofNat n = Int32.ofNat (v &&& n) :=
  Int32.toBitVec.inj (by simp)

theorem int32_shiftRight (hv : v < 2 ^ 31) (hn : n < 32) :
    Int32.ofNat v >>> Int32.ofNat n = Int32.ofNat (v >>> n) := by
  apply Int32.toBitVec.inj
  have hmod : (BitVec.ofNat 32 n).smod 32 = BitVec.ofNat 32 n := smod_ofNat_small hn (by decide)
  rw [Int32.toBitVec_shiftRight, Int32.toBitVec_ofNat', Int32.toBitVec_ofNat', hmod, BitVec.sshiftRight_eq',
    toNat_ofNat_small (by omega), sshiftRight_ofNat_small hv]
  rfl

theorem int32_and_two_pow (hv : v < 2 ^ 31) : Int32.ofNat v &&& Int32.ofNat (2 ^ k) = 0 ↔ v.testBit k = false := by
  rw [int32_and, ← and_two_pow_eq_zero, ← ofNat_eq_zero_small (Nat.lt_of_le_of_lt Nat.and_le_left hv),
    ← Int32.toBitVec_inj]
  rfl

theorem int32_min {c : Nat} (hv : v < 2 ^ 31) (hc : c < 2 ^ 31) :
    (if Int32.ofNat v > Int32.ofNat c then Int32.ofNat c else Int32.ofNat v) = Int32.ofNat (min v c) := by
  have hlt : Int32.ofNat v > Int32.ofNat c ↔ c < v := Int32.ofNat_lt_iff_lt hc hv
  by_cases h : c < v
  · rw [if_pos (hlt.mpr h), Nat.min_eq_right (Nat.le_of_lt h)]
  · rw [if_neg (hlt.not.mpr h), Nat.min_eq_left (Nat.not_lt.mp h)]

theorem toInt32_lt_zero : s.toInt32 < 0 ↔ s.toInt < 0 := by
  rw [Int32.lt_iff_toInt_lt, Int16.toInt_toInt32]
  rfl

theorem int32_magnitude (s : Int16) :
    (if s.toInt32 < 0 then -s.toInt32 else s.toInt32) = Int32.ofNat s.toInt.natAbs := by
  rw [← Int32.ofInt_int16ToInt, ← Int32.ofInt_eq_ofNat]
  split
  next h =>
    rw [Int32.ofInt_int16ToInt, toInt32_lt_zero] at h
    rw [← Int32.ofInt_neg, Int.ofNat_natAbs_of_nonpos (Int.le_of_lt h)]
  next h =>
    rw [Int32.ofInt_int16ToInt, toInt32_lt_zero] at h
    rw [Int.natAbs_of_nonneg (Int.not_lt.mp h)]

end Gopkg.Word
