import Mathlib.Data.Nat.Notation

/-!
# Numerals in keys

The decimal numeral of an integer, as `%d` prints it, how it is parsed, and what can be read back from a text that ends
with one.
-/

namespace Gopkg.Digits

theorem toList_toString (n : Int) :
    (toString n).toList = (if n < 0 then ['-'] else []) ++ Nat.toDigits 10 n.natAbs := by
  cases n with
  | ofNat n =>
      change (toString n).toList = _
      have hn : ¬ Int.ofNat n < 0 := Int.not_lt.mpr (Int.natCast_nonneg n)
      rw [Nat.toString_eq_ofList_toDigits, String.toList_ofList, if_neg hn]
      rfl
  | negSucc n =>
      change ("-" ++ toString (n + 1)).toList = _
      rw [if_pos (Int.negSucc_lt_zero n)]
      simp only [String.toList_append, Nat.toString_eq_ofList_toDigits, String.toList_ofList]
      rfl

theorem mem_toString {n : Int} {c : Char} (hc : c ∈ (toString n).toList) : c = '-' ∨ c.isDigit := by
  rw [toList_toString, List.mem_append] at hc
  rcases hc with hc | hc
  · split at hc
    · exact .inl (List.mem_singleton.mp hc)
    · cases hc
  · exact .inr (Nat.isDigit_of_mem_toDigits (by decide) (by decide) hc)

theorem toDigits_injective {m n : Nat} (h : Nat.toDigits 10 m = Nat.toDigits 10 n) : m = n := by
  rw [← Nat.ofDigitChars_ten_toDigits (n := m), h, Nat.ofDigitChars_ten_toDigits]

theorem toString_int_injective {m n : Int} (h : toString m = toString n) : m = n := by
  have hchars := congrArg String.toList h
  rw [toList_toString, toList_toString] at hchars
  -- a digit is no sign
  have hsign : ∀ k l, '-' :: l ≠ Nat.toDigits 10 k := fun k l heq =>
    absurd (Nat.isDigit_of_mem_toDigits (by decide) (by decide) (heq ▸ List.mem_cons_self)) (by decide)
  by_cases hm : m < 0 <;> by_cases hn : n < 0 <;> simp only [hm, hn, ↓reduceIte, List.singleton_append,
    List.nil_append] at hchars
  · have := toDigits_injective (List.cons.inj hchars).2
    omega
  · exact absurd hchars (hsign _ _)
  · exact absurd hchars.symm (hsign _ _)
  · have := toDigits_injective hchars
    omega

/-! ## Parsing -/

def parseDigits (digits : List Char) : Option Nat :=
  if digits ≠ [] ∧ digits.all Char.isDigit then some (Nat.ofDigitChars 10 digits 0) else none

/-- Digits with an optional sign. -/
def parseSigned : List Char → Option Int
  | '-' :: digits => (parseDigits digits).map fun n : Nat => -(n : Int)
  | '+' :: digits => (parseDigits digits).map fun n : Nat => (n : Int)
  | digits => (parseDigits digits).map fun n : Nat => (n : Int)

/-- `strconv.ParseInt(s, 10, 64)` -/
def parseInt (s : String) : Option Int :=
  (parseSigned s.toList).filter fun n => Int64.minValue.toInt ≤ n ∧ n ≤ Int64.maxValue.toInt

theorem parseDigits_toDigits (n : Nat) : parseDigits (Nat.toDigits 10 n) = some n := by
  have hdigits : (Nat.toDigits 10 n).all Char.isDigit := List.all_eq_true.mpr fun c hc =>
    Nat.isDigit_of_mem_toDigits (by decide) (by decide) hc
  rw [parseDigits, if_pos ⟨Nat.toDigits_ne_nil, hdigits⟩, Nat.ofDigitChars_ten_toDigits]

/-- A text that starts with a digit has no sign. -/
theorem parseSigned_of_isDigit {c : Char} {rest : List Char} (hc : c.isDigit) :
    parseSigned (c :: rest) = (parseDigits (c :: rest)).map fun n : Nat => (n : Int) := by
  have hne : ∀ sign : Char, sign.isDigit = false → c ≠ sign := by
    rintro sign hsign rfl
    exact absurd hc (by simp [hsign])
  exact parseSigned.eq_3 _ (by simp [hne '-' (by decide)]) (by simp [hne '+' (by decide)])

theorem parseSigned_toString (n : Int) : parseSigned (toString n).toList = some n := by
  rw [toList_toString]
  split
  next hneg =>
    rw [List.singleton_append, parseSigned, parseDigits_toDigits, Option.map_some, Option.some.injEq]
    omega
  next hneg =>
    rw [List.nil_append]
    obtain ⟨c, rest, hdigits⟩ := List.exists_cons_of_ne_nil (Nat.toDigits_ne_nil (b := 10) (n := n.natAbs))
    have hc : c.isDigit := Nat.isDigit_of_mem_toDigits (by decide) (by decide) (hdigits ▸ List.mem_cons_self)
    rw [hdigits, parseSigned_of_isDigit hc, ← hdigits, parseDigits_toDigits, Option.map_some, Option.some.injEq]
    omega

theorem parseInt_toString (n : Int) : parseInt (toString n) =
    if Int64.minValue.toInt ≤ n ∧ n ≤ Int64.maxValue.toInt then some n else none := by
  rw [parseInt, parseSigned_toString, Option.filter_some]
  simp only [decide_eq_true_eq]

/-! ## Keys -/

/-- What comes after the last separator is read back. -/
theorem append_cons_inj {α : Type} {x : α} {l l' d d' : List α} (hd : x ∉ d) (hd' : x ∉ d')
    (h : l ++ x :: d = l' ++ x :: d') : l = l' ∧ d = d' := by
  rcases List.append_eq_append_iff.mp h with ⟨m, rfl, hm⟩ | ⟨m, rfl, hm⟩ <;> cases m with
    | nil => simp_all
    | cons y m =>
        obtain ⟨-, rfl⟩ := List.cons.inj hm
        simp at hd hd'

/-- A key that ends with a numeral is that of one text and one number. -/
theorem key_inj {p p' : String} {n n' : Int} (h : p ++ ":" ++ toString n = p' ++ ":" ++ toString n') :
    p = p' ∧ n = n' := by
  have hcolon : ∀ n : Int, ':' ∉ (toString n).toList := by
    intro n hmem
    rcases mem_toString hmem with hc | hc
    · exact absurd hc (by decide)
    · exact absurd hc (by decide)
  have hchars := congrArg String.toList h
  simp only [String.toList_append, List.append_assoc] at hchars
  obtain ⟨hp, hn⟩ := append_cons_inj (hcolon n) (hcolon n') hchars
  exact ⟨String.toList_inj.mp hp, toString_int_injective (String.toList_inj.mp hn)⟩

end Gopkg.Digits
