import Gopkg.Audio.Codec
import Gopkg.Word.Small

/-!
# What the μ-law encoder computes

The magnitude is clipped and biased; its highest bit gives the exponent, and the four bits below it the mantissa.
-/

namespace Gopkg.Audio

open Word

/-- The exponent of a biased magnitude, which has at least eight bits. -/
def exponentOf (v : Nat) : Nat := v.log2 - 7

def mantissaOf (v : Nat) : Nat := (v >>> (exponentOf v + 3)) &&& 0x0F

/-- The byte with its sign, exponent and mantissa, all bits flipped. -/
def pack (negative : Bool) (exponent mantissa : Nat) : UInt8 :=
  let sign : UInt8 := if negative then 0x80 else 0
  ~~~(sign ||| (UInt8.ofNat exponent <<< 4) ||| UInt8.ofNat mantissa)

/-- The magnitude of a sample, clipped and biased. -/
def biased (clip : Nat) (s : Int16) : Nat := min s.toInt.natAbs clip + 0x84

/-- An encoder that clips at `clip`. -/
def encodeClipped (clip : Nat) (s : Int16) : UInt8 :=
  pack (s.toInt < 0) (exponentOf (biased clip s)) (mantissaOf (biased clip s))

variable {v clip : Nat}

/-! ## Bounds -/

theorem natAbs_le (s : Int16) : s.toInt.natAbs ≤ 32768 := by
  have hlow := s.le_toInt
  have hhigh := s.toInt_lt
  omega

theorem le_biased (clip : Nat) (s : Int16) : 2 ^ 7 ≤ biased clip s := by
  rw [biased]
  omega

theorem biased_lt (hclip : clip ≤ 32635) (s : Int16) : biased clip s < 2 ^ 15 := by
  rw [biased]
  omega

theorem log2_bounds (hle : 2 ^ 7 ≤ v) (hlt : v < 2 ^ 15) : 7 ≤ v.log2 ∧ v.log2 < 15 :=
  ⟨(Nat.le_log2 (by omega)).mpr hle, (Nat.log2_lt (by omega)).mpr hlt⟩

theorem exponentOf_lt (hle : 2 ^ 7 ≤ v) (hlt : v < 2 ^ 15) : exponentOf v < 8 := by
  have := log2_bounds hle hlt
  rw [exponentOf]
  omega

theorem mantissaOf_lt (v : Nat) : mantissaOf v < 16 := Nat.lt_succ_of_le Nat.and_le_right

/-- The highest mask that is left meets the number exactly when it is its highest bit. -/
theorem testBit_eq_log2 {k : Nat} (hne : v ≠ 0) (hlt : v < 2 ^ (k + 1)) : v.testBit k = decide (v.log2 = k) := by
  by_cases hk : 2 ^ k ≤ v
  · rw [Nat.testBit_of_two_pow_le_and_two_pow_add_one_gt hk hlt, (Nat.log2_eq_iff hne).mpr ⟨hk, hlt⟩]
    simp
  · have hlog : v.log2 ≠ k := fun heq => hk (heq ▸ Nat.log2_self_le hne)
    rw [Nat.testBit_lt_two_pow (Nat.not_le.mp hk)]
    simp [hlog]

/-- The next mask. -/
theorem two_pow_shiftRight_one (e : Nat) : 2 ^ (e + 1 + 7) >>> 1 = 2 ^ (e + 7) := by
  rw [Nat.shiftRight_one, show e + 1 + 7 = (e + 7) + 1 by omega, Nat.pow_succ, Nat.mul_div_cancel _ (by decide)]

/-! ## The encoder of the codec -/

theorem findExponent_eq (e : Nat) (he : e < 8) (hle : 2 ^ 7 ≤ v) (hlt : v < 2 ^ (e + 8)) :
    findExponent (Int64.ofNat v) (e + 1) (Int64.ofNat e) (Int64.ofNat (2 ^ (e + 7))) = Int64.ofNat (exponentOf v) := by
  have hv : v < 2 ^ 63 := Nat.lt_of_lt_of_le hlt (Nat.pow_le_pow_right (by decide) (by omega))
  have hlog : 7 ≤ v.log2 := (Nat.le_log2 (by omega)).mpr hle
  have hmask : Int64.ofNat v &&& Int64.ofNat (2 ^ (e + 7)) ≠ 0 ↔ v.log2 = e + 7 := by
    rw [ne_eq, int64_and_two_pow hv, testBit_eq_log2 (by omega) hlt, decide_eq_false_iff_not, not_not]
  rw [findExponent]
  by_cases heq : v.log2 = e + 7
  · rw [if_pos (hmask.mpr heq), exponentOf, heq, Nat.add_sub_cancel]
  · have hlow : v.log2 < e + 7 := by
      have := (Nat.log2_lt (by omega)).mpr hlt
      omega
    obtain ⟨e, rfl⟩ : ∃ d, e = d + 1 := ⟨e - 1, by omega⟩
    have hpred : Int64.ofNat (e + 1) - 1 = Int64.ofNat e := by
      rw [Int64.ofNat_add]
      exact Int64.add_sub_cancel ..
    have hshift : Int64.ofNat (2 ^ (e + 1 + 7)) >>> 1 = Int64.ofNat (2 ^ (e + 7)) := by
      have hsmall : 2 ^ (e + 1 + 7) < 2 ^ 63 := Nat.pow_lt_pow_right (by decide) (by omega)
      have hword := int64_shiftRight (n := 1) hsmall (by decide)
      rwa [two_pow_shiftRight_one] at hword
    rw [if_neg (hmask.not.mpr heq), hpred, hshift]
    exact findExponent_eq e (by omega) hle ((Nat.log2_lt (by omega)).mp hlow)

/-- The bytes of both encoders are put together from a sign, eight exponents and sixteen mantissas. -/
theorem int64_pack : ∀ (negative : Bool) (e : Fin 8) (m : Fin 16),
    (~~~((if negative then (0x80 : Int64) else 0) ||| (Int64.ofNat e <<< 4) ||| Int64.ofNat m)).toUInt64.toUInt8 =
      pack negative e m := by
  decide

theorem encodeMulaw_eq (s : Int16) : encodeMulaw s = encodeClipped 32635 s := by
  have habs := natAbs_le s
  have hle := le_biased 32635 s
  have hlt := biased_lt (Nat.le_refl _) s
  have hexp := exponentOf_lt hle hlt
  have hmag : (if (if s.toInt64 < 0 then -s.toInt64 else s.toInt64) > mulawClip then mulawClip
      else if s.toInt64 < 0 then -s.toInt64 else s.toInt64) + mulawBias = Int64.ofNat (biased 32635 s) := by
    rw [int64_magnitude, biased, Int64.ofNat_add, ← int64_min (by omega) (by decide)]
    rfl
  have hfind : findExponent (Int64.ofNat (biased 32635 s)) 8 7 0x4000 = Int64.ofNat (exponentOf (biased 32635 s)) :=
    findExponent_eq 7 (by decide) hle hlt
  have hmantissa : (Int64.ofNat (biased 32635 s) >>> (Int64.ofNat (exponentOf (biased 32635 s)) + 3)) &&& 0x0F =
      Int64.ofNat (mantissaOf (biased 32635 s)) := by
    have hthree : Int64.ofNat (exponentOf (biased 32635 s)) + 3 = Int64.ofNat (exponentOf (biased 32635 s) + 3) := by
      rw [Int64.ofNat_add]
      rfl
    rw [hthree, int64_shiftRight (by omega) (by omega)]
    exact int64_and _ 0x0F
  have hpack := int64_pack (s.toInt < 0) ⟨exponentOf (biased 32635 s), hexp⟩ ⟨_, mantissaOf_lt (biased 32635 s)⟩
  unfold encodeMulaw encodeClipped
  simp only [hmag, hfind, hmantissa]
  simpa only [toInt64_lt_zero, decide_eq_true_eq] using hpack

end Gopkg.Audio
