import Mathlib.Data.Nat.Digits.Defs

/-!
# Numbers written from the most significant digit on

Numerals of the same length are ordered as their digits are, read from the left.
-/

namespace Gopkg.Digits

variable {b : Nat} {l l' : List Nat}

def bigEndian (b : Nat) (l : List Nat) : Nat := Nat.ofDigits b l.reverse

@[simp] theorem bigEndian_nil : bigEndian b [] = 0 := rfl

theorem bigEndian_append : bigEndian b (l ++ l') = bigEndian b l * b ^ l'.length + bigEndian b l' := by
  rw [bigEndian, List.reverse_append, Nat.ofDigits_append, List.length_reverse, Nat.mul_comm, Nat.add_comm]
  rfl

theorem bigEndian_cons {d : Nat} : bigEndian b (d :: l) = d * b ^ l.length + bigEndian b l := by
  have happend : bigEndian b ([d] ++ l) = bigEndian b [d] * b ^ l.length + bigEndian b l := bigEndian_append
  rwa [show bigEndian b [d] = d by simp [bigEndian]] at happend

theorem bigEndian_lt (hb : 1 < b) (hl : ∀ d ∈ l, d < b) : bigEndian b l < b ^ l.length := by
  have hlt := Nat.ofDigits_lt_base_pow_length hb (l := l.reverse) fun d hd => hl d (List.mem_reverse.mp hd)
  rwa [List.length_reverse] at hlt

/-- The first digits are what is left when the others are divided away. -/
theorem bigEndian_append_div (hb : 1 < b) (hl' : ∀ d ∈ l', d < b) :
    bigEndian b (l ++ l') / b ^ l'.length = bigEndian b l := by
  rw [bigEndian_append, Nat.add_comm, Nat.add_mul_div_right _ _ (Nat.pow_pos (by omega)),
    Nat.div_eq_of_lt (bigEndian_lt hb hl'), Nat.zero_add]

theorem length_pairs {α β : Type} (f g : α → β) (l : List α) :
    (l.flatMap fun a => [f a, g a]).length = 2 * l.length := by
  induction l with
  | nil => rfl
  | cons a l ih =>
      rw [List.flatMap_cons, List.length_append, ih]
      simp only [List.length_cons, List.length_nil]
      omega

/-- Two digits for each digit of the square of the base. -/
theorem bigEndian_pairs (l : List Nat) :
    bigEndian b (l.flatMap fun d => [d / b, d % b]) = bigEndian (b * b) l := by
  induction l with
  | nil => rfl
  | cons d l ih =>
      have hpair : bigEndian b [d / b, d % b] = d := by
        simp [bigEndian, Nat.ofDigits_cons, Nat.mod_add_div]
      rw [List.flatMap_cons, bigEndian_append, hpair, ih, length_pairs, bigEndian_cons, Nat.pow_mul, Nat.pow_two]

theorem lex_of_bigEndian_lt (hb : 1 < b) (hl : ∀ d ∈ l, d < b) (hl' : ∀ d ∈ l', d < b)
    (hlength : l.length = l'.length) (hlt : bigEndian b l < bigEndian b l') : List.Lex (· < ·) l l' := by
  induction l generalizing l' with
  | nil =>
      rw [List.eq_nil_of_length_eq_zero hlength.symm] at hlt
      exact absurd hlt (Nat.lt_irrefl _)
  | cons d l ih =>
      cases l' with
      | nil => cases hlength
      | cons d' l' =>
          rw [List.length_cons, List.length_cons, Nat.add_right_cancel_iff] at hlength
          rw [bigEndian_cons, bigEndian_cons, hlength] at hlt
          rw [List.forall_mem_cons] at hl hl'
          rcases Nat.lt_trichotomy d d' with hd | rfl | hd
          · exact .rel hd
          · exact .cons (ih hl.2 hl'.2 hlength (Nat.lt_of_add_lt_add_left hlt))
          · -- a greater first digit outweighs all the others
            have hrest := bigEndian_lt hb hl'.2
            have hmul : (d' + 1) * b ^ l'.length ≤ d * b ^ l'.length := Nat.mul_le_mul_right _ hd
            rw [Nat.succ_mul] at hmul
            omega

/-- A map that keeps the order of digits keeps the order of numerals. -/
theorem lex_map {α : Type} [LT α] {f : Nat → α} (hf : ∀ d d', d < d' → d' < b → f d < f d')
    (hl' : ∀ d ∈ l', d < b) (h : List.Lex (· < ·) l l') : List.Lex (· < ·) (l.map f) (l'.map f) := by
  induction h with
  | nil => exact .nil
  | rel hd => exact .rel (hf _ _ hd (hl' _ List.mem_cons_self))
  | cons _ ih => exact .cons (ih fun d hd => hl' d (List.mem_cons_of_mem _ hd))

/-- A separator at the same place in both. -/
theorem lex_insert {α : Type} [LT α] {x x' y y' : List α} (c : α) (hlength : x.length = x'.length)
    (h : List.Lex (· < ·) (x ++ y) (x' ++ y')) : List.Lex (· < ·) (x ++ c :: y) (x' ++ c :: y') := by
  induction x generalizing x' with
  | nil =>
      rw [List.eq_nil_of_length_eq_zero hlength.symm] at h ⊢
      exact .cons h
  | cons a x ih =>
      cases x' with
      | nil => cases hlength
      | cons a' x' =>
          cases h with
          | rel ha => exact .rel ha
          | cons h => exact .cons (ih (Nat.succ.inj hlength) h)

/-- What comes after numerals of the same length does not matter. -/
theorem lex_append {α : Type} [LT α] {x x' : List α} (hlength : x.length = x'.length)
    (h : List.Lex (· < ·) x x') (y y' : List α) : List.Lex (· < ·) (x ++ y) (x' ++ y') := by
  induction h with
  | nil => cases hlength
  | rel ha => exact .rel ha
  | cons _ ih => exact .cons (ih (Nat.succ.inj hlength))

end Gopkg.Digits
