import Mathlib.Algebra.Ring.Nat

/-!
# Numerals

`itoa` of `voice/pipeline/observer.go`. An `int` has 64 bits.
-/

namespace Gopkg.Voice

/-- The `int` that an arithmetic operation leaves. -/
def wrap (n : Int) : Int := n.bmod (2 ^ 64)

/-- The loop of `itoa`, with the free bytes of the buffer and the bytes that it has filled from the back. -/
def itoaLoop : (i n : Nat) → List Char → List Char
  | 0, _, buf => buf
  | i + 1, n, buf => if n = 0 then buf else itoaLoop i (n / 10) (Char.ofNat ('0'.toNat + n % 10) :: buf)

def itoa (n : Int) : String :=
  if n = 0 then "0"
  else
    -- the smallest `int` stays negative, and then the loop does not run
    let m := if n < 0 then wrap (-n) else n
    let buf := itoaLoop 20 m.toNat []
    String.ofList (if n < 0 then '-' :: buf else buf)

theorem itoaLoop_zero (i : Nat) (buf : List Char) : itoaLoop i 0 buf = buf := by
  cases i <;> rfl

theorem digit_eq {n : Nat} (h : n < 10) : Char.ofNat ('0'.toNat + n) = n.digitChar := by
  decide +revert

/-- The buffer is long enough for a number with as many digits. -/
theorem itoaLoop_eq (i : Nat) : ∀ (n : Nat) (buf : List Char), 0 < n → n < 10 ^ i →
    itoaLoop i n buf = Nat.toDigits 10 n ++ buf := by
  induction i with
  | zero =>
      intro n buf hpos hlt
      rw [Nat.pow_zero] at hlt
      omega
  | succ i ih =>
      intro n buf hpos hlt
      rw [itoaLoop, if_neg (Nat.ne_of_gt hpos), digit_eq (Nat.mod_lt n (by decide))]
      by_cases hten : n < 10
      · rw [Nat.div_eq_of_lt hten, itoaLoop_zero, Nat.mod_eq_of_lt hten, Nat.toDigits_of_lt_base hten]
        rfl
      · have hten := Nat.not_lt.mp hten
        have hdiv : n / 10 < 10 ^ i := by
          rw [Nat.pow_succ] at hlt
          exact Nat.div_lt_of_lt_mul (Nat.mul_comm _ _ ▸ hlt)
        rw [ih (n / 10) _ (Nat.div_pos hten (by decide)) hdiv, Nat.toDigits_of_base_le (by decide) hten,
          List.append_assoc]
        rfl

theorem itoa_natCast {k : Nat} (hk : k < 2 ^ 63) : itoa k = toString k := by
  rw [Nat.toString_eq_ofList_toDigits]
  by_cases hzero : k = 0
  · subst hzero
    rfl
  · have hne : (k : Int) ≠ 0 := Int.natCast_ne_zero.mpr hzero
    have hneg : ¬ (k : Int) < 0 := Int.not_lt.mpr (Int.natCast_nonneg k)
    have hlt : k < 10 ^ 20 := Nat.lt_of_lt_of_le hk (by decide)
    simp only [itoa, if_neg hne, if_neg hneg, Int.toNat_natCast]
    rw [itoaLoop_eq 20 k [] (Nat.pos_of_ne_zero hzero) hlt, List.append_nil]

-- after the largest `int` comes the smallest one, whose numeral has no digits
example : itoa (wrap (9223372036854775807 + 1)) = "-" := by decide

theorem toString_injective {k k' : Nat} (h : toString k = toString k') : k = k' := by
  rw [Nat.toString_eq_ofList_toDigits, Nat.toString_eq_ofList_toDigits, String.ofList_inj] at h
  rw [← Nat.ofDigitChars_ten_toDigits (n := k), h, Nat.ofDigitChars_ten_toDigits]

end Gopkg.Voice
