import Mathlib.Data.Nat.Notation

/-!
# Patterns of keys

The patterns of `SCAN`. Of a class only the brackets are read here: it matches any one character.
-/

namespace Gopkg.Redis

/-- The characters that have a meaning in a pattern. -/
def globSpecial : List Char := ['*', '?', '[', '\\']

inductive GlobMatches : List Char → List Char → Prop
  | nil : GlobMatches [] []
  | star {p s : List Char} (skipped : List Char) : GlobMatches p s → GlobMatches ('*' :: p) (skipped ++ s)
  | any {p s : List Char} {c : Char} : GlobMatches p s → GlobMatches ('?' :: p) (c :: s)
  | escaped {p s : List Char} {c : Char} : GlobMatches p s → GlobMatches ('\\' :: c :: p) (c :: s)
  | oneOf {members p s : List Char} {c : Char} : GlobMatches p s → GlobMatches ('[' :: members ++ ']' :: p) (c :: s)
  | literal {p s : List Char} {c : Char} : c ∉ globSpecial → GlobMatches p s → GlobMatches (c :: p) (c :: s)

/-- Characters without a meaning match themselves. -/
theorem GlobMatches.literals {l p s : List Char} (hl : ∀ c ∈ l, c ∉ globSpecial) (h : GlobMatches (l ++ p) s) :
    ∃ u, s = l ++ u ∧ GlobMatches p u := by
  induction l generalizing s with
  | nil => exact ⟨s, rfl, h⟩
  | cons c l ih =>
      rw [List.forall_mem_cons] at hl
      generalize hq : c :: l ++ p = q at h
      cases h with
      | nil => cases hq
      | star | any | escaped | oneOf =>
          obtain ⟨rfl, _⟩ := List.cons.inj hq
          exact absurd (by decide) hl.1
      | literal _ hrest =>
          obtain ⟨rfl, rfl⟩ := List.cons.inj hq
          obtain ⟨u, rfl, hu⟩ := ih hl.2 hrest
          exact ⟨u, rfl, hu⟩

end Gopkg.Redis
