import Mathlib.Data.List.Basic

/-!
# Loops of rounds

What a loop shows that goes through rounds, one like the other, until it ends in one of several ways. `round k` is what
it shows in round `k`, `Passes k` says that round `k` leads to the next one, and `Finish k last r` that the loop ends
there, with the result `r`, and shows `last`.
-/

namespace Gopkg.Lts

variable {E R : Type} {round : Nat → List E} {Passes : Nat → Prop} {Finish : Nat → List E → R → Prop} {k c : Nat}
  {t last : List E} {r : R}

/-- From round `k` on: `c` rounds that lead on, and the end. -/
structure Rounds (round : Nat → List E) (Passes : Nat → Prop) (Finish : Nat → List E → R → Prop) (k c : Nat)
    (t : List E) (r : R) : Prop where
  passes : ∀ j, k ≤ j → j < k + c → Passes j
  ends : ∃ last, t = (List.range' k c).flatMap round ++ last ∧ Finish (k + c) last r

theorem Rounds.finish (h : Finish k last r) : Rounds round Passes Finish k 0 last r where
  passes _ hj hj' := absurd hj (Nat.not_le.mpr hj')
  ends := ⟨last, rfl, h⟩

theorem Rounds.cons (hk : Passes k) (h : Rounds round Passes Finish (k + 1) c t r) :
    Rounds round Passes Finish k (c + 1) (round k ++ t) r where
  passes j hj hj' := by
    rcases Nat.eq_or_lt_of_le hj with rfl | hlt
    · exact hk
    · exact h.passes j hlt (by omega)
  ends := by
    obtain ⟨last, rfl, hlast⟩ := h.ends
    refine ⟨last, ?_, ?_⟩
    · rw [List.range'_succ, List.flatMap_cons, List.append_assoc]
    · rwa [show k + (c + 1) = k + 1 + c by omega]

/-- A loop that has `left` more rounds at most: what one pass does says what it does. -/
theorem Rounds.of_pass {L : Nat → Nat → List E → R → Prop}
    (hpass : ∀ {left k t r}, L left k t r → Finish k t r ∨
      ∃ left' t', left = left' + 1 ∧ Passes k ∧ t = round k ++ t' ∧ L left' (k + 1) t' r)
    {left : Nat} (h : L left k t r) : ∃ c, Rounds round Passes Finish k c t r := by
  induction left generalizing k t with
  | zero =>
      rcases hpass h with hlast | ⟨_, _, hleft, _⟩
      · exact ⟨0, .finish hlast⟩
      · cases hleft
  | succ left ih =>
      rcases hpass h with hlast | ⟨left', t', hleft, hpasses, rfl, hrest⟩
      · exact ⟨0, .finish hlast⟩
      · cases hleft
        obtain ⟨c, hrounds⟩ := ih hrest
        exact ⟨c + 1, hrounds.cons hpasses⟩

theorem Rounds.mem_iff {ev : E} {l : List Nat} :
    ev ∈ l.flatMap round ++ last ↔ (∃ j ∈ l, ev ∈ round j) ∨ ev ∈ last := by
  rw [List.mem_append, List.mem_flatMap]

/-- What is not shown before is shown at the end. -/
theorem append_of_not_mem {ev : E} {l t₁ t₂ : List E} (hev : ev ∉ l) (h : l ++ last = t₁ ++ ev :: t₂) :
    ∃ t₀, t₁ = l ++ t₀ ∧ last = t₀ ++ ev :: t₂ := by
  rcases List.append_eq_append_iff.mp h with ⟨mid, rfl, hmid⟩ | ⟨mid, rfl, hrest⟩
  · exact ⟨mid, rfl, hmid⟩
  · cases mid with
    | nil => exact ⟨[], by simp, hrest.symm⟩
    | cons ev' mid =>
        obtain ⟨rfl, _⟩ := List.cons.inj hrest
        simp at hev

end Gopkg.Lts
