import Mathlib.Computability.RegularExpressions

/-!
# Patterns of a fixed shape

Character classes and counted repetitions, as regular expressions.
-/

namespace Gopkg.Regex

open RegularExpression

variable {α : Type} {P Q : RegularExpression α} {cs x y : List α} {c : α}

/-- A character class. -/
def oneOf (cs : List α) : RegularExpression α := cs.foldr (fun c P => char c + P) 0

theorem mem_oneOf (h : c ∈ cs) : [c] ∈ (oneOf cs).matches' := by
  induction cs with
  | nil => cases h
  | cons d cs ih =>
      rw [oneOf, List.foldr_cons, matches'_add, Language.mem_add]
      rcases List.mem_cons.mp h with rfl | h
      · exact .inl rfl
      · exact .inr (ih h)

theorem mem_char : [c] ∈ (char c).matches' := rfl

theorem mem_append (hx : x ∈ P.matches') (hy : y ∈ Q.matches') : x ++ y ∈ (P * Q).matches' := by
  rw [matches'_mul]
  exact Language.append_mem_mul hx hy

theorem mem_oneOf_pow (h : ∀ c ∈ x, c ∈ cs) : x ∈ (oneOf cs ^ x.length).matches' := by
  rw [matches'_pow, Language.mem_pow]
  refine ⟨x.map fun c => [c], ?_, List.length_map _, ?_⟩
  · rw [← List.flatMap_def, List.flatMap_singleton']
  · intro y hy
    obtain ⟨c, hc, rfl⟩ := List.mem_map.mp hy
    exact mem_oneOf (h c hc)

end Gopkg.Regex
