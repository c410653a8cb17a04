import Mathlib.Algebra.Ring.Nat

/-!
# Slots

A pool of processes is a list of places, and a step moves one of them. `total f` adds up a weight over the
pool: a number of tokens that are held, or of steps that are left.
-/

namespace Gopkg.Lts

variable {α : Type} {f g : α → Nat} {l : List α} {i : Nat} {a b : α}

theorem getElem?_set_slot (hi : l[i]? = some a) : (l.set i b)[i]? = some b := by
  obtain ⟨hlt, _⟩ := List.getElem?_eq_some_iff.mp hi
  exact List.getElem?_set_self hlt

/-- Only the slot that moves changes. -/
theorem getElem?_set_cases {j : Nat} {c : α} (hi : l[i]? = some a) (hj : (l.set i b)[j]? = some c) :
    (j = i ∧ c = b) ∨ (j ≠ i ∧ l[j]? = some c) := by
  by_cases hji : j = i
  · subst hji
    exact .inl ⟨rfl, Option.some.inj (hj.symm.trans (getElem?_set_slot hi))⟩
  · rw [List.getElem?_set_ne (Ne.symm hji)] at hj
    exact .inr ⟨hji, hj⟩

/-- A new slot comes after all others. -/
theorem getElem?_snoc_cases {j : Nat} {c : α} (hj : (l ++ [b])[j]? = some c) :
    (j = l.length ∧ c = b) ∨ l[j]? = some c := by
  rcases Nat.lt_trichotomy j l.length with hlt | heq | hgt
  · exact .inr (by rwa [List.getElem?_append_left hlt] at hj)
  · subst heq
    exact .inl ⟨rfl, by simpa using hj.symm⟩
  · rw [List.getElem?_eq_none (by simpa using Nat.succ_le_of_lt hgt)] at hj
    cases hj

def total (f : α → Nat) (l : List α) : Nat := (l.map f).sum

@[simp] theorem total_nil : total f [] = 0 := rfl

@[simp] theorem total_cons : total f (a :: l) = f a + total f l := by
  simp [total]

theorem total_snoc : total f (l ++ [a]) = total f l + f a := by
  simp [total]

theorem total_set (h : l[i]? = some a) : total f (l.set i b) + f a = total f l + f b := by
  induction l generalizing i with
  | nil => simp at h
  | cons c l ih =>
      cases i with
      | zero =>
          simp only [List.getElem?_cons_zero, Option.some.injEq] at h
          subst h
          simp only [List.set_cons_zero, total_cons]
          omega
      | succ i =>
          simp only [List.getElem?_cons_succ] at h
          have := ih h
          simp only [List.set_cons_succ, total_cons]
          omega

theorem le_total (h : l[i]? = some a) : f a ≤ total f l := by
  induction l generalizing i with
  | nil => simp at h
  | cons c l ih =>
      cases i with
      | zero =>
          simp only [List.getElem?_cons_zero, Option.some.injEq] at h
          simp only [total_cons, h]
          omega
      | succ i =>
          simp only [List.getElem?_cons_succ] at h
          have := ih h
          simp only [total_cons]
          omega

theorem exists_of_total_pos (h : 0 < total f l) : ∃ (i : Nat) (a : α), l[i]? = some a ∧ 0 < f a := by
  induction l with
  | nil => simp at h
  | cons c l ih =>
      rw [total_cons] at h
      by_cases hc : 0 < f c
      · exact ⟨0, c, rfl, hc⟩
      · obtain ⟨i, a, hi, ha⟩ := ih (by omega)
        exact ⟨i + 1, a, by simpa using hi, ha⟩

theorem total_mono (h : ∀ a ∈ l, f a ≤ g a) : total f l ≤ total g l := by
  induction l with
  | nil => exact Nat.le_refl _
  | cons c l ih =>
      rw [total_cons, total_cons]
      exact Nat.add_le_add (h c List.mem_cons_self) (ih fun a ha => h a (List.mem_cons_of_mem _ ha))

end Gopkg.Lts
