import Gopkg.Sorting.Stable

/-!
# Exchange sort

Two nested loops exchange neighbours in place. A round of the inner loop brings the largest key of the part that is
not sorted yet to its end.
-/

namespace Gopkg.Sorting

variable {α κ : Type*} [LinearOrder κ] {key : α → κ}

/-- The body of the inner loop. -/
def exchange (key : α → κ) (l : List α) (j : Nat) : List α :=
  match l[j]?, l[j + 1]? with
  | some a, some b => if key a > key b then (l.set j b).set (j + 1) a else l
  | _, _ => l

/-- The inner loop, with the bound `n`. -/
def round (key : α → κ) (l : List α) (n : Nat) : List α := (List.range n).foldl (exchange key) l

def exchangeSort (key : α → κ) (l : List α) : List α :=
  (List.range (l.length - 1)).foldl (fun l' i => round key l' (l.length - i - 1)) l

theorem exchange_at (ys post : List α) (a b : α) : exchange key (ys ++ a :: b :: post) ys.length =
    if key a > key b then ys ++ b :: a :: post else ys ++ a :: b :: post := by
  have ha : (ys ++ a :: b :: post)[ys.length]? = some a := by simp
  have hb : (ys ++ a :: b :: post)[ys.length + 1]? = some b := by simp
  simp only [exchange, ha, hb]
  split
  · simp
  · rfl

/-- A round over the elements `xs` carries the largest key to their end. -/
theorem round_eq (key : α → κ) (n : Nat) : ∀ (xs post : List α), xs.length = n + 1 → ∃ ys m,
    round key (xs ++ post) n = ys ++ m :: post ∧ ys.length = n ∧ (∀ y ∈ ys, key y ≤ key m) ∧
      ∀ k, keyed key k (ys ++ [m]) = keyed key k xs := by
  induction n with
  | zero =>
      intro xs post hlen
      obtain ⟨m, rfl⟩ := List.length_eq_one_iff.mp hlen
      exact ⟨[], m, rfl, rfl, by simp, fun _ => rfl⟩
  | succ n ih =>
      intro xs post hlen
      obtain ⟨xs, b, rfl⟩ := (List.eq_nil_or_concat xs).resolve_left (by rintro rfl; simp at hlen)
      rw [List.concat_eq_append, List.length_append, List.length_singleton] at hlen
      obtain ⟨ys, m, hround, hys, hmax, hkeyed⟩ := ih xs (b :: post) (Nat.add_right_cancel hlen)
      have hlast : round key (xs ++ b :: post) (n + 1) = exchange key (ys ++ m :: b :: post) ys.length := by
        rw [round, List.range_succ, List.foldl_append, hys]
        exact congrArg (exchange key · n) hround
      rw [List.concat_eq_append, List.append_assoc, List.singleton_append, hlast, exchange_at]
      by_cases hgt : key m > key b
      · refine ⟨ys ++ [b], m, ?_, ?_, ?_, fun k => ?_⟩
        · simp [hgt]
        · simp [hys]
        · simpa [or_imp, forall_and] using ⟨hmax, le_of_lt hgt⟩
        · have hswap : keyed key k ([b] ++ [m]) = keyed key k ([m] ++ [b]) := keyed_swap (ne_of_gt hgt) k
          rw [keyed_append xs, ← hkeyed, List.append_assoc, keyed_append ys, hswap, keyed_append ys, keyed_append,
            List.append_assoc]
      · refine ⟨ys ++ [m], b, ?_, ?_, ?_, fun k => ?_⟩
        · simp [hgt]
        · simp [hys]
        · have hle := not_lt.mp hgt
          simpa [or_imp, forall_and] using ⟨fun y hy => le_trans (hmax y hy) hle, hle⟩
        · rw [keyed_append, keyed_append xs, hkeyed]

/-- After `i` rounds the last `i` elements are in their places. -/
theorem rounds_eq (key : α → κ) (l : List α) (i : Nat) (hi : i ≤ l.length - 1) : ∃ front back,
    (List.range i).foldl (fun l' i => round key l' (l.length - i - 1)) l = front ++ back ∧
      front.length = l.length - i ∧ back.Pairwise (fun a b => key a ≤ key b) ∧
      (∀ a ∈ front, ∀ b ∈ back, key a ≤ key b) ∧ ∀ k, keyed key k (front ++ back) = keyed key k l := by
  induction i with
  | zero => exact ⟨l, [], by simp, rfl, .nil, by simp, by simp⟩
  | succ i ih =>
      obtain ⟨front, back, hfold, hlen, hsorted, hle, hkeyed⟩ := ih (by omega)
      obtain ⟨ys, m, hround, hys, hmax, hkeyed'⟩ :=
        round_eq key (l.length - i - 1) front back (by omega)
      have hmem : ∀ a ∈ ys ++ [m], a ∈ front := fun a ha => (perm_of_keyed hkeyed').mem_iff.mp ha
      refine ⟨ys, m :: back, ?_, by omega, ?_, ?_, fun k => ?_⟩
      · rw [List.range_succ, List.foldl_append, hfold]
        exact hround
      · exact List.pairwise_cons.mpr ⟨hle m (hmem m (by simp)), hsorted⟩
      · intro a ha
        exact List.forall_mem_cons.mpr ⟨hmax a ha, hle a (hmem a (by simp [ha]))⟩
      · rw [← hkeyed, ← List.singleton_append, ← List.append_assoc, keyed_append, hkeyed', keyed_append]

theorem exchangeSort_stable (key : α → κ) (l : List α) : StableSorted key l (exchangeSort key l) := by
  obtain ⟨front, back, hfold, hlen, hsorted, hle, hkeyed⟩ := rounds_eq key l (l.length - 1) (Nat.le_refl _)
  have heq : exchangeSort key l = front ++ back := hfold
  rw [heq]
  refine ⟨List.pairwise_append.mpr ⟨?_, hsorted, hle⟩, hkeyed⟩
  -- at most one element is left in front
  match front, hlen with
  | [], _ => exact .nil
  | [a], _ => exact List.pairwise_singleton _ _
  | _ :: _ :: _, hlen =>
      simp only [List.length_cons] at hlen
      omega

end Gopkg.Sorting
