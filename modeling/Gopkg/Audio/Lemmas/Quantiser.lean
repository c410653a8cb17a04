import Mathlib.Algebra.Order.Group.Abs
import Mathlib.Algebra.Order.Ring.Int
import Gopkg.Audio.Lemmas.Mulaw

/-!
# μ-law as a quantiser

Coding a sample and decoding it again moves its biased magnitude to the middle of a cell. A segment has sixteen cells,
and the cells of each segment are twice as wide as those of the one before.
-/

namespace Gopkg.Audio

variable {v v' e m : Nat} {s t : Int16}

def decodeMulaw (b : UInt8) : Int16 := mulawDecodeTable.get ⟨b.toNat, b.toNat_lt⟩

/-- What becomes of a sample that is coded and decoded. -/
def quantised (s : Int16) : Int16 := decodeMulaw (encodeMulaw s)

def signed (negative : Bool) (n : Int) : Int := if negative then -n else n

/-- The middle of a cell: the segment begins at `128 * 2 ^ e`, and half a cell is `4 * 2 ^ e`. -/
def level (e m : Nat) : Nat := (8 * m + 132) * 2 ^ e

/-! ## The table -/

/-- Where the sixteen entries of a sign and an exponent begin. -/
def rowStart (negative : Bool) (e : Nat) : Nat := (if negative then 0 else 128) + 16 * (7 - e)

theorem toNat_pack : ∀ (negative : Bool) (e : Fin 8) (m : Fin 16),
    (pack negative e m).toNat = rowStart negative e + (15 - m) := by
  decide

theorem table_row : ∀ (negative : Bool) (e : Fin 8),
    ((mulawDecodeTable.toList.drop (rowStart negative e)).take 16).map Int16.toInt =
      (List.range 16).map fun k => signed negative (level e (15 - k) - 132) := by
  decide

theorem toInt_decode_pack (negative : Bool) (e : Fin 8) (m : Fin 16) :
    (decodeMulaw (pack negative e m)).toInt = signed negative (level e m - 132) := by
  have hentry : (mulawDecodeTable.toList[rowStart negative e + (15 - m)]?).map Int16.toInt =
      some (signed negative (level e m - 132)) := by
    have hrow := congrArg (·[15 - m.val]?) (table_row negative e)
    have hm : 15 - m.val < 16 := by omega
    simpa [List.getElem?_take_of_lt hm, hm, show 15 - (15 - m.val) = m by omega] using hrow
  have hget : mulawDecodeTable.toList[(pack negative e m).toNat]? = some (decodeMulaw (pack negative e m)) := by
    rw [Vector.getElem?_toList]
    exact Vector.getElem?_eq_getElem (pack negative e m).toNat_lt
  rw [← toNat_pack, hget] at hentry
  exact Option.some.inj hentry

/-! ## Cells -/

/-- The middle of the cell of a biased magnitude. -/
def middle (v : Nat) : Nat := level (exponentOf v) (mantissaOf v)

theorem segment (hv : 2 ^ 7 ≤ v) : 2 ^ (exponentOf v + 7) ≤ v ∧ v < 2 ^ (exponentOf v + 8) := by
  have hlog : 7 ≤ v.log2 := (Nat.le_log2 (by omega)).mpr hv
  have hbits : 2 ^ v.log2 ≤ v ∧ v < 2 ^ (v.log2 + 1) := (Nat.log2_eq_iff (by omega)).mp rfl
  rw [exponentOf]
  rwa [Nat.sub_add_cancel hlog, show v.log2 - 7 + 8 = v.log2 + 1 by omega]

/-- The leading bit is dropped from the number of the cell. -/
theorem mantissaOf_add (hv : 2 ^ 7 ≤ v) : mantissaOf v + 16 = v / (8 * 2 ^ exponentOf v) := by
  obtain ⟨hlow, hhigh⟩ := segment hv
  have hpos : 0 < 8 * 2 ^ exponentOf v := Nat.mul_pos (by decide) (Nat.two_pow_pos _)
  have hcell : 16 ≤ v / (8 * 2 ^ exponentOf v) ∧ v / (8 * 2 ^ exponentOf v) < 32 := by
    rw [Nat.le_div_iff_mul_le hpos, Nat.div_lt_iff_lt_mul hpos]
    rw [Nat.pow_add] at hlow hhigh
    omega
  have hbits : mantissaOf v = v / (8 * 2 ^ exponentOf v) % 16 := by
    rw [mantissaOf, Nat.shiftRight_eq_div_pow, Nat.pow_add, Nat.mul_comm]
    exact Nat.and_two_pow_sub_one_eq_mod _ 4
  omega

theorem middle_eq (hv : 2 ^ 7 ≤ v) :
    middle v = v / (8 * 2 ^ exponentOf v) * (8 * 2 ^ exponentOf v) + 4 * 2 ^ exponentOf v := by
  have hfactor : 8 * mantissaOf v + 132 = (mantissaOf v + 16) * 8 + 4 := by omega
  rw [middle, level, hfactor, Nat.add_mul, Nat.mul_assoc, mantissaOf_add hv]

/-- Half a cell is four units. -/
theorem middle_near (hv : 2 ^ 7 ≤ v) :
    middle v ≤ v + 4 * 2 ^ exponentOf v ∧ v ≤ middle v + 4 * 2 ^ exponentOf v := by
  have hrest := Nat.mod_lt v (Nat.mul_pos (by decide : 0 < 8) (Nat.two_pow_pos (exponentOf v)))
  have hdiv := Nat.div_add_mod' v (8 * 2 ^ exponentOf v)
  rw [middle_eq hv]
  omega

theorem level_segment (e : Nat) (hm : m < 16) : 2 ^ (e + 7) ≤ level e m ∧ level e m < 2 ^ (e + 8) := by
  rw [level, Nat.pow_add, Nat.pow_add, Nat.mul_comm (2 ^ e), Nat.mul_comm (2 ^ e)]
  exact ⟨Nat.mul_le_mul_right _ (by omega), Nat.mul_lt_mul_of_pos_right (by omega) (Nat.two_pow_pos _)⟩

theorem exponentOf_mono (hv : v ≠ 0) (h : v ≤ v') : exponentOf v ≤ exponentOf v' := by
  have hlog : v.log2 ≤ v'.log2 := (Nat.le_log2 (by omega)).mpr (le_trans (Nat.log2_self_le hv) h)
  exact Nat.sub_le_sub_right hlog 7

theorem middle_mono (hv : 2 ^ 7 ≤ v) (h : v ≤ v') : middle v ≤ middle v' := by
  have hv' : 2 ^ 7 ≤ v' := le_trans hv h
  rcases Nat.eq_or_lt_of_le (exponentOf_mono (by omega) h) with heq | hlt
  · rw [middle_eq hv, middle_eq hv', ← heq]
    exact Nat.add_le_add_right (Nat.mul_le_mul_right _ (Nat.div_le_div_right h)) _
  -- A later segment begins where this one ends.
  · calc middle v ≤ 2 ^ (exponentOf v + 8) := le_of_lt (level_segment _ (mantissaOf_lt v)).2
      _ ≤ 2 ^ (exponentOf v' + 7) := Nat.pow_le_pow_right (by decide) (by omega)
      _ ≤ middle v' := (level_segment _ (mantissaOf_lt v')).1

/-- The least biased magnitude is the middle of its own cell. -/
theorem le_middle (hv : 132 ≤ v) : 132 ≤ middle v :=
  middle_mono (v := 132) (by decide) hv

/-! ## Samples -/

def clamp (s : Int16) : Int := max (-32635) (min s.toInt 32635)

theorem biased_eq (s : Int16) : biased 32635 s = (clamp s).natAbs + 132 := by
  rw [biased, clamp]
  omega

theorem toInt_quantised (s : Int16) :
    (quantised s).toInt = signed (s.toInt < 0) (middle (biased 32635 s) - 132) := by
  have hlt := exponentOf_lt (le_biased 32635 s) (biased_lt (Nat.le_refl _) s)
  have hentry := toInt_decode_pack (s.toInt < 0) ⟨_, hlt⟩ ⟨_, mantissaOf_lt (biased 32635 s)⟩
  rw [quantised, encodeMulaw_eq]
  exact hentry

theorem toInt_quantised_of_nonneg (h : 0 ≤ s.toInt) : (quantised s).toInt = middle (biased 32635 s) - 132 := by
  have hsign : ¬ s.toInt < 0 := by omega
  simp [toInt_quantised, signed, hsign]

theorem toInt_quantised_of_nonpos (h : s.toInt ≤ 0) : (quantised s).toInt = 132 - middle (biased 32635 s) := by
  rcases Int.lt_or_eq_of_le h with hneg | hzero
  · simp [toInt_quantised, signed, hneg]
  · have hmiddle : middle (biased 32635 s) = 132 := by
      rw [biased, hzero]
      rfl
    rw [toInt_quantised_of_nonneg (by omega), hmiddle]
    rfl

theorem quantised_near (s : Int16) :
    |(quantised s).toInt - clamp s| ≤ 2 ^ (exponentOf (biased 32635 s) + 2) := by
  have hnear := middle_near (le_biased 32635 s)
  have hwidth : 2 ^ (exponentOf (biased 32635 s) + 2) = ((4 * 2 ^ exponentOf (biased 32635 s) : Nat) : Int) := by
    rw [Int.pow_add]
    push_cast
    exact Int.mul_comm ..
  have hbiased := biased_eq s
  rw [hwidth, abs_sub_le_iff]
  rw [clamp] at hbiased ⊢
  rcases Int.le_total 0 s.toInt with hpos | hneg
  · rw [toInt_quantised_of_nonneg hpos]
    omega
  · rw [toInt_quantised_of_nonpos hneg]
    omega

theorem quantised_mono (h : s ≤ t) : quantised s ≤ quantised t := by
  rw [Int16.le_iff_toInt_le] at h ⊢
  rcases Int.le_total 0 s.toInt with hs | hs
  · have hle : biased 32635 s ≤ biased 32635 t := by
      rw [biased, biased]
      omega
    have hmono := middle_mono (le_biased _ s) hle
    rw [toInt_quantised_of_nonneg hs, toInt_quantised_of_nonneg (Int.le_trans hs h)]
    omega
  · rcases Int.le_total 0 t.toInt with ht | ht
    · have hslow := le_middle (v := biased 32635 s) (Nat.le_add_left ..)
      have htlow := le_middle (v := biased 32635 t) (Nat.le_add_left ..)
      rw [toInt_quantised_of_nonpos hs, toInt_quantised_of_nonneg ht]
      omega
    · have hle : biased 32635 t ≤ biased 32635 s := by
        rw [biased, biased]
        omega
      have hmono := middle_mono (le_biased _ t) hle
      rw [toInt_quantised_of_nonpos hs, toInt_quantised_of_nonpos ht]
      omega

theorem toInt_quantised_neg (h : -32768 < s.toInt) : (quantised (-s)).toInt = -(quantised s).toInt := by
  have hhigh := s.toInt_lt
  have hneg : (-s).toInt = -s.toInt := by
    rw [Int16.toInt_neg, Int.bmod_eq_of_le] <;> omega
  have hbiased : biased 32635 (-s) = biased 32635 s := by
    rw [biased, biased, hneg, Int.natAbs_neg]
  rcases Int.le_total 0 s.toInt with hpos | hneg
  · rw [toInt_quantised_of_nonneg hpos, toInt_quantised_of_nonpos (by omega), hbiased]
    omega
  · rw [toInt_quantised_of_nonpos hneg, toInt_quantised_of_nonneg (by omega), hbiased]
    omega

/-! ## Bytes -/

theorem exponentOf_level (e : Nat) (hm : m < 16) : exponentOf (level e m) = e := by
  obtain ⟨hlow, hhigh⟩ := level_segment e hm
  have hpos : 0 < level e m := Nat.lt_of_lt_of_le (Nat.two_pow_pos _) hlow
  rw [exponentOf, (Nat.log2_eq_iff (by omega)).mpr ⟨hlow, hhigh⟩, Nat.add_sub_cancel]

theorem mantissaOf_level (e : Nat) (hm : m < 16) : mantissaOf (level e m) = m := by
  have hlow : 2 ^ 7 ≤ level e m :=
    le_trans (Nat.pow_le_pow_right (by decide) (Nat.le_add_left ..)) (level_segment e hm).1
  have hcell : level e m / (8 * 2 ^ e) = m + 16 := by
    rw [level, Nat.mul_div_mul_right _ _ (Nat.two_pow_pos e)]
    omega
  have hadd := mantissaOf_add hlow
  rw [exponentOf_level e hm] at hadd
  omega

theorem le_level (e m : Nat) : 132 + 8 * m ≤ level e m := by
  rw [level, Nat.add_comm]
  exact Nat.le_mul_of_pos_right _ (Nat.two_pow_pos e)

theorem level_eq_iff (hm : m < 16) : level e m = 132 ↔ e = 0 ∧ m = 0 := by
  constructor
  · intro heq
    have hexponent := exponentOf_level e hm
    rw [heq] at hexponent
    exact ⟨hexponent.symm, by have := le_level e m; omega⟩
  · rintro ⟨rfl, rfl⟩
    rfl

/-- Every byte has a sign, an exponent and a mantissa. -/
theorem eq_pack : ∀ q r : Fin 16, UInt8.ofNat (16 * q + r) = pack (q.val < 8) ((15 - q) % 8) (15 - r) := by
  decide

theorem exists_pack (b : UInt8) : ∃ (negative : Bool) (e : Fin 8) (m : Fin 16), b = pack negative e m := by
  have hb := b.toNat_lt
  have heq := eq_pack ⟨b.toNat / 16, by omega⟩ ⟨b.toNat % 16, by omega⟩
  rw [Nat.div_add_mod, UInt8.ofNat_toNat] at heq
  exact ⟨_, ⟨_, Nat.mod_lt _ (by decide)⟩, ⟨_, by omega⟩, heq⟩

/-- A level is coded as itself, with the sign of its value. -/
theorem encode_level (negative : Bool) (e : Fin 8) (m : Fin 16) :
    encodeMulaw (decodeMulaw (pack negative e m)) = pack (signed negative (level e m - 132) < 0) e m := by
  have hvalue := toInt_decode_pack negative e m
  have hlow := le_level e m
  have hhigh := (level_segment e m.isLt).2
  have hmax : 2 ^ (e.val + 8) ≤ 2 ^ 15 := Nat.pow_le_pow_right (by decide) (by omega)
  have hbiased : biased 32635 (decodeMulaw (pack negative e m)) = level e m := by
    rw [biased, hvalue, signed]
    split <;> omega
  rw [encodeMulaw_eq, encodeClipped, hbiased, exponentOf_level _ m.isLt, mantissaOf_level _ m.isLt, hvalue]

/-- The code of negative zero becomes that of zero. -/
def positiveZero (b : UInt8) : UInt8 := if b = 0x7F then 0xFF else b

/-- Which code is that of negative zero. -/
theorem pack_eq_iff : ∀ (negative : Bool) (e : Fin 8) (m : Fin 16),
    pack negative e m = 0x7F ↔ negative = true ∧ e.val = 0 ∧ m.val = 0 := by
  decide

theorem encode_decode (b : UInt8) : encodeMulaw (decodeMulaw b) = positiveZero b := by
  obtain ⟨negative, e, m, rfl⟩ := exists_pack b
  rw [encode_level, positiveZero]
  by_cases hb : pack negative e m = 0x7F
  · obtain ⟨rfl, he, hm⟩ := (pack_eq_iff _ _ _).mp hb
    rw [if_pos hb, he, hm]
    rfl
  · have hlow := le_level e m
    have hsign : decide (signed negative (level e m - 132) < 0) = negative := by
      cases negative with
      | false => simpa [signed] using by omega
      | true =>
        have hne : level e m ≠ 132 := fun heq => hb ((pack_eq_iff _ _ _).mpr ⟨rfl, (level_eq_iff m.isLt).mp heq⟩)
        simpa [signed] using by omega
    rw [if_neg hb, hsign]

theorem decode_positiveZero (b : UInt8) : decodeMulaw (positiveZero b) = decodeMulaw b := by
  rw [positiveZero]
  split
  · next hb =>
    rw [hb]
    rfl
  · rfl

end Gopkg.Audio
