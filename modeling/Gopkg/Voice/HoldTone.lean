import Gopkg.Audio.Lemmas.Mulaw

/-!
# Encoder of the hold tone

`pcm16ToMulaw` and `linearToMulaw` of `voice/holdfiller/twilio/filler.go`, which the package keeps for itself, against
the encoder of `audio/codec`.
-/

namespace Gopkg.Voice.HoldTone

open Audio Word

def muLawMax : Int32 := 0x1FFF
def muLawBias : Int32 := 0x84

/-- The search for the highest bit. The loop ends when the exponent is zero. -/
def findExponent (sample : Int32) : (exponent : Nat) → (expMask : Int32) → Nat
  | 0, _ => 0
  | exponent + 1, expMask =>
      if sample &&& expMask = 0 then findExponent sample exponent (expMask >>> 1) else exponent + 1

def linearToMulaw (sample : Int32) : UInt8 :=
  let sign : UInt8 := if sample < 0 then 0x80 else 0
  let sample := if sample < 0 then -sample else sample
  let sample := (if sample > muLawMax then muLawMax else sample) + muLawBias
  let exponent := findExponent sample 7 0x4000
  let mantissa := ((sample >>> (Int32.ofNat (exponent + 3))) &&& 0x0F).toUInt32.toUInt8
  ~~~(sign ||| (UInt8.ofNat exponent <<< 4) ||| mantissa)

def pcm16ToMulaw (pcm : List Int16) : List UInt8 := pcm.map fun s => linearToMulaw s.toInt32

variable {v : Nat}

theorem findExponent_eq (e : Nat) (he : e < 8) (hle : 2 ^ 7 ≤ v) (hlt : v < 2 ^ (e + 8)) :
    findExponent (Int32.ofNat v) e (Int32.ofNat (2 ^ (e + 7))) = exponentOf v := by
  have hlog : 7 ≤ v.log2 := (Nat.le_log2 (by omega)).mpr hle
  have hhigh := (Nat.log2_lt (by omega)).mpr hlt
  induction e with
  | zero =>
      rw [findExponent, exponentOf]
      omega
  | succ e ih =>
      have hv : v < 2 ^ 31 := Nat.lt_of_lt_of_le hlt (Nat.pow_le_pow_right (by decide) (by omega))
      have hmask : Int32.ofNat v &&& Int32.ofNat (2 ^ (e + 1 + 7)) = 0 ↔ v.log2 ≠ e + 1 + 7 := by
        rw [int32_and_two_pow hv, testBit_eq_log2 (by omega) hlt, decide_eq_false_iff_not]
      rw [findExponent]
      by_cases heq : v.log2 = e + 1 + 7
      · rw [if_neg (by simp [hmask, heq]), exponentOf, heq, Nat.add_sub_cancel]
      · have hshift : Int32.ofNat (2 ^ (e + 1 + 7)) >>> 1 = Int32.ofNat (2 ^ (e + 7)) := by
          have hsmall : 2 ^ (e + 1 + 7) < 2 ^ 31 := Nat.pow_lt_pow_right (by decide) (by omega)
          have hword := int32_shiftRight (n := 1) hsmall (by decide)
          rwa [two_pow_shiftRight_one] at hword
        rw [if_pos (hmask.mpr heq), hshift]
        exact ih (by omega) ((Nat.log2_lt (by omega)).mp (by omega)) (by omega)

theorem linearToMulaw_eq (s : Int16) : linearToMulaw s.toInt32 = encodeClipped 0x1FFF s := by
  have habs := natAbs_le s
  have hclip : 0x1FFF ≤ 32635 := by decide
  have hle := le_biased 0x1FFF s
  have hlt := biased_lt hclip s
  have hexp := exponentOf_lt hle hlt
  have hmag : (if (if s.toInt32 < 0 then -s.toInt32 else s.toInt32) > muLawMax then muLawMax
      else if s.toInt32 < 0 then -s.toInt32 else s.toInt32) + muLawBias = Int32.ofNat (biased 0x1FFF s) := by
    rw [int32_magnitude, biased, Int32.ofNat_add, ← int32_min (by omega) (by decide)]
    rfl
  have hfind : findExponent (Int32.ofNat (biased 0x1FFF s)) 7 0x4000 = exponentOf (biased 0x1FFF s) :=
    findExponent_eq 7 (by decide) hle hlt
  have hmantissa : (Int32.ofNat (biased 0x1FFF s) >>> Int32.ofNat (exponentOf (biased 0x1FFF s) + 3)) &&& 0x0F =
      Int32.ofNat (mantissaOf (biased 0x1FFF s)) := by
    rw [int32_shiftRight (by omega) (by omega)]
    exact int32_and _ 0x0F
  unfold linearToMulaw encodeClipped pack
  simp only [hmag, hfind, hmantissa]
  simp [toInt32_lt_zero]

/-! ## Where the two encoders differ -/

theorem pack_inj {negative : Bool} {e e' m m' : Nat} (he : e < 8) (he' : e' < 8) (hm : m < 16) (hm' : m' < 16)
    (h : pack negative e m = pack negative e' m') : e = e' ∧ m = m' := by
  have hunpack : ∀ (e : Fin 8) (m : Fin 16),
      (((~~~(pack negative e m)) >>> 4) &&& 7).toNat = e ∧ ((~~~(pack negative e m)) &&& 15).toNat = m := by
    cases negative <;> decide
  have hleft := hunpack ⟨e, he⟩ ⟨m, hm⟩
  have hright := hunpack ⟨e', he'⟩ ⟨m', hm'⟩
  simp only at hleft hright
  rw [h] at hleft
  exact ⟨hleft.1.symm.trans hright.1, hleft.2.symm.trans hright.2⟩

theorem mantissaOf_eq (v : Nat) : mantissaOf v = v / 2 ^ (exponentOf v + 3) % 16 := by
  rw [mantissaOf, Nat.shiftRight_eq_div_pow]
  exact Nat.and_two_pow_sub_one_eq_mod _ 4

/-- The magnitudes of a segment. -/
theorem exponentOf_eq {e : Nat} (hle : 2 ^ (e + 7) ≤ v) (hlt : v < 2 ^ (e + 8)) : exponentOf v = e := by
  have hne : v ≠ 0 := Nat.ne_of_gt (Nat.lt_of_lt_of_le (Nat.two_pow_pos _) hle)
  rw [exponentOf, (Nat.log2_eq_iff hne).mpr ⟨hle, hlt⟩, Nat.add_sub_cancel]

/-- The clip of the hold tone falls in the first step of a segment. -/
theorem encodeClipped_eq_iff (s : Int16) :
    encodeClipped 0x1FFF s = encodeClipped 32635 s ↔ s.toInt.natAbs ≤ 8571 := by
  have habs := natAbs_le s
  by_cases hquiet : s.toInt.natAbs ≤ 0x1FFF
  · have heq : biased 0x1FFF s = biased 32635 s := by
      rw [biased, biased, Nat.min_eq_left hquiet, Nat.min_eq_left (by omega)]
    rw [encodeClipped, encodeClipped, heq]
    exact iff_of_true rfl (by omega)
  · have hclipped : biased 0x1FFF s = 8323 := by
      rw [biased]
      omega
    have he : exponentOf 8323 = 6 := exponentOf_eq (by decide) (by decide)
    have hm : mantissaOf 8323 = 0 := by
      rw [mantissaOf_eq, he]
      decide
    have hlt := biased_lt (Nat.le_refl _) s
    have hv : biased 32635 s = min s.toInt.natAbs 32635 + 0x84 := rfl
    rw [encodeClipped, encodeClipped, hclipped, he, hm]
    generalize biased 32635 s = v at hlt hv
    constructor
    · intro h
      obtain ⟨hexp, hmantissa⟩ :=
        pack_inj (by decide) (exponentOf_lt (by omega) hlt) (by decide) (mantissaOf_lt v) h
      rw [mantissaOf_eq, ← hexp] at hmantissa
      by_cases hseg : v < 2 ^ 14
      · omega
      · rw [exponentOf_eq (e := 7) (by omega) hlt] at hexp
        omega
    · intro hle
      have hexp : exponentOf v = 6 := exponentOf_eq (by omega) (by omega)
      have hmantissa : mantissaOf v = 0 := by
        rw [mantissaOf_eq, hexp]
        omega
      rw [hexp, hmantissa]

/-- The encoders agree on the samples that are no louder than 8571, and on no others. -/
theorem encoders_agree_iff_quiet (pcm : List Int16) :
    pcm16ToMulaw pcm = Audio.pcm16ToMulaw pcm ↔ ∀ s ∈ pcm, s.toInt.natAbs ≤ 8571 := by
  simp only [pcm16ToMulaw, Audio.pcm16ToMulaw, List.map_inj_left, linearToMulaw_eq, encodeMulaw_eq,
    encodeClipped_eq_iff]

/-- The loudest sample. -/
theorem encoders_differ_at_full_scale :
    pcm16ToMulaw [32767] = [0x9F] ∧ Audio.pcm16ToMulaw [32767] = [0x80] ∧
      pcm16ToMulaw [32767] ≠ Audio.pcm16ToMulaw [32767] := by
  decide

end Gopkg.Voice.HoldTone
