import Mathlib.Data.List.Basic

/-!
# Blocks of a stream

A stream is cut into consecutive blocks of `n` elements, with a rest that is too short for one more.
-/

namespace Gopkg.Stream

variable {α : Type*} {n : Nat}

def blocks (n : Nat) (l : List α) : List (List α) :=
  (List.range (l.length / n)).map fun i => (l.drop (n * i)).take n

def rest (n : Nat) (l : List α) : List α := l.drop (n * (l.length / n))

theorem length_append_div {b : List α} (hb : b.length = n) (hn : 0 < n) (l : List α) :
    (b ++ l).length / n = l.length / n + 1 := by
  rw [List.length_append, hb, Nat.add_comm, Nat.add_div_right _ hn]

theorem drop_block {b : List α} (hb : b.length = n) (l : List α) (i : Nat) :
    (b ++ l).drop (n * (i + 1)) = l.drop (n * i) := by
  rw [Nat.mul_add, Nat.mul_one, Nat.add_comm, ← hb, ← List.drop_drop, List.drop_left]

theorem blocks_append {b : List α} (hb : b.length = n) (hn : 0 < n) (l : List α) :
    blocks n (b ++ l) = b :: blocks n l := by
  rw [blocks, length_append_div hb hn, List.range_succ_eq_map, List.map_cons, List.map_map]
  refine congrArg₂ _ ?_ (List.map_congr_left fun i _ => ?_)
  · rw [Nat.mul_zero, List.drop_zero, ← hb, List.take_left]
  · rw [Function.comp_apply, Nat.succ_eq_add_one, drop_block hb]

theorem rest_append {b : List α} (hb : b.length = n) (hn : 0 < n) (l : List α) : rest n (b ++ l) = rest n l := by
  rw [rest, length_append_div hb hn, drop_block hb]
  rfl

/-- There is only one way to cut a stream. -/
theorem blocks_unique {bs : List (List α)} {r : List α} (hbs : ∀ b ∈ bs, b.length = n) (hr : r.length < n) :
    blocks n (bs.flatten ++ r) = bs ∧ rest n (bs.flatten ++ r) = r := by
  induction bs with
  | nil => simp [blocks, rest, Nat.div_eq_of_lt hr]
  | cons b bs ih =>
      rw [List.forall_mem_cons] at hbs
      have hn : 0 < n := Nat.zero_lt_of_lt hr
      rw [List.flatten_cons, List.append_assoc, blocks_append hbs.1 hn, rest_append hbs.1 hn, (ih hbs.2).1]
      exact ⟨rfl, (ih hbs.2).2⟩

/-- The blocks, and the rest if there is one. -/
def pieces (n : Nat) (l : List α) : List (List α) := blocks n l ++ if rest n l = [] then [] else [rest n l]

@[simp] theorem pieces_nil : pieces n ([] : List α) = [] := by
  simp [pieces, blocks, rest]

/-- The pieces are cut off one by one. -/
theorem pieces_cons (hn : 0 < n) {l : List α} (hl : l ≠ []) : pieces n l = l.take n :: pieces n (l.drop n) := by
  rcases Nat.lt_or_ge l.length n with hlt | hge
  · rw [List.take_of_length_le (Nat.le_of_lt hlt), List.drop_of_length_le (Nat.le_of_lt hlt), pieces_nil]
    simp [pieces, blocks, rest, Nat.div_eq_of_lt hlt, hl]
  · have htake : (l.take n).length = n := List.length_take_of_le hge
    conv_lhs => rw [← List.take_append_drop n l]
    rw [pieces, blocks_append htake hn, rest_append htake hn]
    rfl

/-- The list is cut into pieces of `n` elements, with the last one shorter perhaps. -/
structure Cut (n : Nat) (l : List α) (ps : List (List α)) : Prop where
  flatten : ps.flatten = l
  nonempty : ∀ p ∈ ps, p ≠ []
  full : ∀ p ∈ ps.dropLast, p.length = n
  length_le : ∀ p ∈ ps, p.length ≤ n
  count : ps.length = (l.length + n - 1) / n

theorem Cut.nil (hn : 0 < n) : Cut n ([] : List α) [] where
  flatten := rfl
  nonempty := nofun
  full := nofun
  length_le := nofun
  count := by
    simp only [List.length_nil, Nat.zero_add]
    exact (Nat.div_eq_of_lt (Nat.sub_lt hn Nat.one_pos)).symm

theorem Cut.cons (hn : 0 < n) {l : List α} (hl : l ≠ []) {ps : List (List α)} (h : Cut n (l.drop n) ps) :
    Cut n l (l.take n :: ps) where
  flatten := by rw [List.flatten_cons, h.flatten, List.take_append_drop]
  nonempty := by
    rw [List.forall_mem_cons]
    exact ⟨fun hnil => (List.take_eq_nil_iff.mp hnil).elim (Nat.ne_of_gt hn) hl, h.nonempty⟩
  full := by
    cases ps with
    | nil => exact nofun
    | cons p ps =>
        -- the list goes on after the first piece, which is full
        have hdrop : l.drop n ≠ [] := by
          intro hnil
          have hflatten := h.flatten
          rw [hnil, List.flatten_eq_nil_iff] at hflatten
          exact h.nonempty p List.mem_cons_self (hflatten p List.mem_cons_self)
        rw [Ne, List.drop_eq_nil_iff, Nat.not_le] at hdrop
        rw [List.dropLast_cons_of_ne_nil (List.cons_ne_nil p ps), List.forall_mem_cons]
        exact ⟨List.length_take_of_le (Nat.le_of_lt hdrop), h.full⟩
  length_le := by
    rw [List.forall_mem_cons]
    exact ⟨List.length_take_le n l, h.length_le⟩
  count := by
    have hpos : 0 < l.length := List.length_pos_iff.mpr hl
    rw [List.length_cons, h.count, List.length_drop, ← Nat.add_div_right _ hn]
    rcases Nat.le_total n l.length with hle | hle
    · congr 1
      omega
    · rw [Nat.sub_eq_zero_of_le hle, Nat.div_eq_of_lt_le (k := 1) (by omega) (by omega),
        Nat.div_eq_of_lt_le (k := 1) (by omega) (by omega)]

theorem cut_pieces (hn : 0 < n) (l : List α) : Cut n l (pieces n l) := by
  by_cases hl : l = []
  · rw [hl, pieces_nil]
    exact .nil hn
  · have hlt : (l.drop n).length < l.length := by
      rw [List.length_drop]
      exact Nat.sub_lt (List.length_pos_iff.mpr hl) hn
    rw [pieces_cons hn hl]
    exact .cons hn hl (cut_pieces hn (l.drop n))
termination_by l.length

end Gopkg.Stream
