import Mathlib.Algebra.Order.Field.Rat

/-!
# Decimal numerals

A numeral with an optional sign and an optional part after the point, the number that it denotes, and the numeral of a
number of units of the last place.
-/

namespace Gopkg.Digits

/-- Digits, and the digits after the point if there are any. -/
@[ext]
structure Decimal where
  negative : Bool
  whole : List Char
  frac : List Char
  whole_ne : whole ≠ []
  whole_digits : ∀ c ∈ whole, c.isDigit
  frac_digits : ∀ c ∈ frac, c.isDigit

namespace Decimal

variable {d d' : Decimal} {negative : Bool} {n s : Nat}

/-- The digits after the point, with the point. -/
def tail (d : Decimal) : List Char := if d.frac = [] then [] else '.' :: d.frac

def signChars (negative : Bool) : List Char := if negative then ['-'] else []

def chars (d : Decimal) : List Char := signChars d.negative ++ (d.whole ++ d.tail)

def signOf (negative : Bool) : ℚ := if negative then -1 else 1

theorem signOf_mul_natAbs (k : Int) : signOf (k < 0) * (k.natAbs : ℚ) = k := by
  have hcast : ((k.natAbs : Int) : ℚ) = if k < 0 then -(k : ℚ) else k := by
    split
    · rw [show (k.natAbs : Int) = -k by omega, Int.cast_neg]
    · rw [show (k.natAbs : Int) = k by omega]
  rw [signOf, ← Int.cast_natCast, hcast]
  by_cases hk : k < 0
  · simp [hk]
  · simp [hk]

/-- The number that the numeral denotes. -/
def value (d : Decimal) : ℚ :=
  signOf d.negative * (Nat.ofDigitChars 10 (d.whole ++ d.frac) 0 / 10 ^ d.frac.length)

/-! ## Numerals are read in one way -/

theorem takeWhile_isDigit (d : Decimal) : (d.whole ++ d.tail).takeWhile Char.isDigit = d.whole := by
  rw [List.takeWhile_append_of_pos d.whole_digits, tail]
  split
  · exact List.append_nil _
  · exact List.append_nil _

theorem dropWhile_isDigit (d : Decimal) : (d.whole ++ d.tail).dropWhile Char.isDigit = d.tail := by
  rw [List.dropWhile_append_of_pos d.whole_digits, tail]
  split
  · rfl
  · rfl

theorem tail_injective (h : d.tail = d'.tail) : d.frac = d'.frac := by
  unfold tail at h
  split at h
  next hd =>
    split at h
    next hd' => rw [hd, hd']
    next => cases h
  next =>
    split at h
    next => cases h
    next => exact (List.cons.inj h).2

/-- A numeral without its sign starts with a digit. -/
theorem head_isDigit (d : Decimal) : ∃ c rest, d.whole ++ d.tail = c :: rest ∧ c.isDigit := by
  cases hwhole : d.whole with
  | nil => exact absurd hwhole d.whole_ne
  | cons c rest => exact ⟨c, rest ++ d.tail, rfl, d.whole_digits c (hwhole ▸ List.mem_cons_self)⟩

theorem not_sign_digit {c : Char} {l l' : List Char} (hc : c.isDigit) : '-' :: l ≠ c :: l' := by
  intro h
  rw [← (List.cons.inj h).1] at hc
  exact absurd hc (by decide)

theorem chars_injective (h : d.chars = d'.chars) : d = d' := by
  obtain ⟨c, rest, hd, hc⟩ := d.head_isDigit
  obtain ⟨c', rest', hd', hc'⟩ := d'.head_isDigit
  have hsign : d.negative = d'.negative ∧ d.whole ++ d.tail = d'.whole ++ d'.tail := by
    unfold chars at h
    cases hneg : d.negative with
    | true =>
        cases hneg' : d'.negative with
        | true =>
            rw [hneg, hneg'] at h
            exact ⟨rfl, (List.cons.inj h).2⟩
        | false =>
            rw [hneg, hneg', hd'] at h
            exact absurd h (not_sign_digit hc')
    | false =>
        cases hneg' : d'.negative with
        | true =>
            rw [hneg, hneg', hd] at h
            exact absurd h.symm (not_sign_digit hc)
        | false =>
            rw [hneg, hneg'] at h
            exact ⟨rfl, h⟩
  have htail : d.tail = d'.tail := by rw [← dropWhile_isDigit, hsign.2, dropWhile_isDigit]
  refine Decimal.ext hsign.1 ?_ (tail_injective htail)
  rw [← takeWhile_isDigit, hsign.2, takeWhile_isDigit]

/-- After the sign of a numeral there is no other one. -/
theorem append_ne_sign_sign {l l' : List Char} (d : Decimal) : d.chars ++ l ≠ '-' :: '-' :: l' := by
  obtain ⟨c, rest, hd, hc⟩ := d.head_isDigit
  unfold chars
  rw [hd]
  intro h
  cases hneg : d.negative with
  | true =>
      rw [hneg] at h
      exact not_sign_digit hc (List.cons.inj h).2.symm
  | false =>
      rw [hneg] at h
      exact not_sign_digit hc h.symm

/-! ## Numerals with a number of places -/

/-- The digits after the point of `n` units of the last of `s` places. -/
def places (n s : Nat) : List Char := if s = 0 then [] else (Nat.toDigits 10 (n % 10 ^ s)).leftpad s '0'

theorem isDigit_places : ∀ c ∈ places n s, c.isDigit := by
  intro c hc
  unfold places at hc
  split at hc
  next => cases hc
  next =>
    rw [List.leftpad, List.mem_append] at hc
    rcases hc with hc | hc
    · rw [List.eq_of_mem_replicate hc]
      rfl
    · exact Nat.isDigit_of_mem_toDigits (by decide) (by decide) hc

theorem length_places : (places n s).length = s := by
  rw [places]
  split
  next hs => exact hs.symm
  next hs =>
    have hlength : (Nat.toDigits 10 (n % 10 ^ s)).length ≤ s :=
      (Nat.length_toDigits_le_iff (by decide) (Nat.pos_of_ne_zero hs)).mpr (Nat.mod_lt _ (Nat.pow_pos (by decide)))
    rw [List.length_leftpad, Nat.max_eq_left hlength]

theorem ofDigitChars_places : Nat.ofDigitChars 10 (places n s) 0 = n % 10 ^ s := by
  rw [places]
  split
  next hs => rw [hs, Nat.pow_zero, Nat.mod_one, Nat.ofDigitChars_nil]
  next =>
    rw [List.leftpad, Nat.ofDigitChars_append, Nat.ofDigitChars_replicate_zero, Nat.mul_zero,
      Nat.ofDigitChars_ten_toDigits]

/-- The numeral of `n` units of the last of `s` places. -/
def fixed (negative : Bool) (n s : Nat) : Decimal where
  negative := negative
  whole := Nat.toDigits 10 (n / 10 ^ s)
  frac := places n s
  whole_ne := Nat.toDigits_ne_nil
  whole_digits _ hc := Nat.isDigit_of_mem_toDigits (by decide) (by decide) hc
  frac_digits := isDigit_places

theorem tail_fixed : (fixed negative n s).tail = if s = 0 then [] else '.' :: places n s := by
  have hplaces : places n s = [] ↔ s = 0 := by rw [← List.length_eq_zero_iff, length_places]
  change (if places n s = [] then [] else _) = _
  simp only [hplaces]
  rfl

theorem chars_fixed : (fixed negative n s).chars =
    signChars negative ++ (Nat.toDigits 10 (n / 10 ^ s) ++ if s = 0 then [] else '.' :: places n s) := by
  rw [chars, tail_fixed]
  rfl

theorem ofDigitChars_fixed :
    Nat.ofDigitChars 10 ((fixed negative n s).whole ++ (fixed negative n s).frac) 0 = n := by
  change Nat.ofDigitChars 10 (Nat.toDigits 10 (n / 10 ^ s) ++ places n s) 0 = n
  rw [Nat.ofDigitChars_append, Nat.ofDigitChars_ten_toDigits, Nat.ofDigitChars_eq_ofDigitChars_zero,
    ofDigitChars_places, length_places, Nat.div_add_mod]

theorem length_frac_fixed : (fixed negative n s).frac.length = s := length_places

theorem value_fixed : (fixed negative n s).value = signOf negative * ((n : ℚ) / 10 ^ s) := by
  rw [value, ofDigitChars_fixed, length_frac_fixed]
  rfl

end Decimal

end Gopkg.Digits
