import Mathlib.Data.List.Perm.Basic
import Mathlib.Order.Lattice

/-!
# Stable sorting

A list is sorted by a key, and the elements with one key stay in their order. There is only one such list.
-/

namespace Gopkg.Sorting

variable {α κ : Type*} [LinearOrder κ] {key : α → κ} {l l' l₁ l₂ : List α} {k : κ}

/-- The elements with the key `k`, in their order. -/
def keyed (key : α → κ) (k : κ) (l : List α) : List α := l.filter fun a => key a = k

@[simp] theorem keyed_append (l₁ l₂ : List α) : keyed key k (l₁ ++ l₂) = keyed key k l₁ ++ keyed key k l₂ :=
  List.filter_append ..

theorem keyed_cons_self (a : α) (l : List α) : keyed key (key a) (a :: l) = a :: keyed key (key a) l := by
  simp [keyed]

theorem keyed_cons_of_ne {a : α} (h : key a ≠ k) (l : List α) : keyed key k (a :: l) = keyed key k l := by
  simp [keyed, h]

/-- Neighbours with different keys can change places. -/
theorem keyed_swap {a b : α} (h : key a ≠ key b) (k : κ) : keyed key k [b, a] = keyed key k [a, b] := by
  by_cases ha : key a = k
  · have hb : key b ≠ k := fun hb => h (ha.trans hb.symm)
    simp [keyed, ha, hb]
  · simp [keyed, List.filter_cons, ha]

theorem perm_of_keyed (h : ∀ k, keyed key k l' = keyed key k l) : l'.Perm l := by
  classical
  rw [List.perm_iff_count]
  intro a
  have hcount (l : List α) : (keyed key (key a) l).count a = l.count a :=
    List.count_filter (by simp)
  rw [← hcount l', ← hcount l, h]

/-- `l'` is `l`, sorted by the key and stable. -/
structure StableSorted (key : α → κ) (l l' : List α) : Prop where
  sorted : l'.Pairwise fun a b => key a ≤ key b
  stable : ∀ k, keyed key k l' = keyed key k l

theorem StableSorted.perm (h : StableSorted key l l') : l'.Perm l :=
  perm_of_keyed h.stable

theorem StableSorted.nil : StableSorted key [] [] :=
  ⟨.nil, fun _ => rfl⟩

/-- What is sorted may have been sorted in part before. -/
theorem StableSorted.append_of_sorted (h : StableSorted key l l₁) (h' : StableSorted key (l₁ ++ l₂) l') :
    StableSorted key (l ++ l₂) l' := by
  refine ⟨h'.sorted, fun k => ?_⟩
  rw [h'.stable, keyed_append, keyed_append, h.stable]

theorem eq_of_sorted (h₁ : l₁.Pairwise fun a b => key a ≤ key b) (h₂ : l₂.Pairwise fun a b => key a ≤ key b)
    (h : ∀ k, keyed key k l₁ = keyed key k l₂) : l₁ = l₂ := by
  induction l₁ generalizing l₂ with
  | nil => exact (List.perm_nil.mp (perm_of_keyed h).symm).symm
  | cons a l₁ ih =>
      cases l₂ with
      | nil => exact absurd (perm_of_keyed h) (by simp)
      | cons b l₂ =>
          have hperm := perm_of_keyed h
          have ha := List.pairwise_cons.mp h₁
          have hb := List.pairwise_cons.mp h₂
          -- both heads have the smallest key, so that each is the first element with it
          have hle : key a ≤ key b := by
            rcases List.mem_cons.mp (hperm.mem_iff.mpr List.mem_cons_self) with heq | hmem
            · rw [heq]
            · exact ha.1 b hmem
          have hge : key b ≤ key a := by
            rcases List.mem_cons.mp (hperm.mem_iff.mp List.mem_cons_self) with heq | hmem
            · rw [heq]
            · exact hb.1 a hmem
          have hkey : key a = key b := le_antisymm hle hge
          have hhead := h (key a)
          rw [keyed_cons_self, hkey, keyed_cons_self] at hhead
          obtain ⟨rfl, _⟩ := List.cons.inj hhead
          congr 1
          refine ih ha.2 hb.2 fun k => ?_
          have htail := h k
          by_cases hk : key a = k
          · subst hk
            rw [keyed_cons_self, keyed_cons_self] at htail
            exact (List.cons.inj htail).2
          · rwa [keyed_cons_of_ne hk, keyed_cons_of_ne hk] at htail

theorem StableSorted.unique (h₁ : StableSorted key l l₁) (h₂ : StableSorted key l l₂) : l₁ = l₂ :=
  eq_of_sorted h₁.sorted h₂.sorted fun k => (h₁.stable k).trans (h₂.stable k).symm

end Gopkg.Sorting
