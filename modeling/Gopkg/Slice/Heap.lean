import Mathlib.Data.List.Basic

/-!
# Slices over a heap of arrays

A slice is a window onto a backing array. Appending to it writes in place while there is capacity, and so it may be seen
through another slice of the same array; two slices that are `Apart` never see each other's writes.
-/

namespace Gopkg

variable {α : Type}

/-- The arrays that were allocated, by address. -/
abbrev Heap (α : Type) := List (List α)

def Heap.cells (h : Heap α) (array : Nat) : List α := h[array]?.getD []

/-- A slice that begins where its array does. The nil slice has no capacity. -/
structure Slice where
  array : Nat
  len : Nat
  cap : Nat
  deriving DecidableEq, Repr

namespace Slice

def nil : Slice := ⟨0, 0, 0⟩

/-- `s[:n]` -/
def upTo (s : Slice) (n : Nat) : Slice := { s with len := n }

def read (s : Slice) (h : Heap α) : List α := (h.cells s.array).take s.len

/-- `append(s, xs...)`. How much capacity a new array has to spare is up to the runtime: `grow` of the old capacity and
the new length. -/
def append [Inhabited α] (grow : Nat → Nat → Nat) (s : Slice) (xs : List α) (h : Heap α) : Slice × Heap α :=
  let len := s.len + xs.length
  if len ≤ s.cap then
    let cells := h.cells s.array
    ({ s with len := len }, h.set s.array (cells.take s.len ++ xs ++ cells.drop len))
  else
    ({ array := h.length, len := len, cap := len + grow s.cap len },
      h ++ [s.read h ++ xs ++ List.replicate (grow s.cap len) default])

/-- The array of the slice is allocated, and as long as its capacity. -/
structure Valid (s : Slice) (h : Heap α) : Prop where
  len_le : s.len ≤ s.cap
  cells_length : 0 < s.cap → (h.cells s.array).length = s.cap

/-- The two slices do not share an array. -/
def Apart (s t : Slice) : Prop := s.cap = 0 ∨ t.cap = 0 ∨ s.array ≠ t.array

variable {s t : Slice} {h : Heap α} {xs : List α} {grow : Nat → Nat → Nat}

theorem Apart.symm (hapart : s.Apart t) : t.Apart s := by
  rcases hapart with hs | ht | hne
  · exact .inr (.inl hs)
  · exact .inl ht
  · exact .inr (.inr hne.symm)

theorem apart_nil : s.Apart nil := .inr (.inl rfl)

theorem valid_nil : nil.Valid h := ⟨Nat.le_refl _, fun hpos => absurd hpos (Nat.lt_irrefl _)⟩

@[simp] theorem read_nil : nil.read h = [] := List.take_zero

theorem Valid.len_le_cells (hs : s.Valid h) : s.len ≤ (h.cells s.array).length := by
  have hlen := hs.len_le
  rcases Nat.eq_zero_or_pos s.cap with hzero | hpos
  · omega
  · have := hs.cells_length hpos
    omega

theorem Valid.lt_length (hs : s.Valid h) (hpos : 0 < s.cap) : s.array < h.length := by
  have hcells := hs.cells_length hpos
  rw [Heap.cells] at hcells
  by_contra hge
  rw [List.getElem?_eq_none (Nat.not_lt.mp hge)] at hcells
  exact absurd hcells (Nat.ne_of_lt hpos)

theorem Valid.length_read (hs : s.Valid h) : (s.read h).length = s.len :=
  List.length_take_of_le hs.len_le_cells

theorem Valid.upTo (hs : s.Valid h) {n : Nat} (hn : n ≤ s.len) : (s.upTo n).Valid h :=
  ⟨Nat.le_trans hn hs.len_le, hs.cells_length⟩

theorem read_upTo {n : Nat} (hn : n ≤ s.len) : (s.upTo n).read h = (s.read h).take n := by
  rw [read, read, List.take_take, Nat.min_eq_left hn]
  rfl

/-! ## Arrays that change -/

@[simp] theorem cells_set_self {a : Nat} {cells : List α} (ha : a < h.length) :
    Heap.cells (h.set a cells) a = cells := by
  simp [Heap.cells, ha]

theorem cells_set_of_ne {a b : Nat} {cells : List α} (hne : a ≠ b) : Heap.cells (h.set a cells) b = h.cells b := by
  simp [Heap.cells, hne]

@[simp] theorem cells_alloc_self {cells : List α} : Heap.cells (h ++ [cells]) h.length = cells := by
  simp [Heap.cells]

theorem cells_alloc_of_lt {a : Nat} {cells : List α} (ha : a < h.length) :
    Heap.cells (h ++ [cells]) a = h.cells a := by
  simp [Heap.cells, List.getElem?_append_left ha]

section Append

variable [Inhabited α]

theorem append_of_le (hle : s.len + xs.length ≤ s.cap) : s.append grow xs h =
    ({ s with len := s.len + xs.length }, h.set s.array
      ((h.cells s.array).take s.len ++ xs ++ (h.cells s.array).drop (s.len + xs.length))) :=
  if_pos hle

theorem append_of_lt (hlt : s.cap < s.len + xs.length) : s.append grow xs h =
    ({ array := h.length, len := s.len + xs.length, cap := s.len + xs.length + grow s.cap (s.len + xs.length) },
      h ++ [s.read h ++ xs ++ List.replicate (grow s.cap (s.len + xs.length)) default]) :=
  if_neg (Nat.not_le.mpr hlt)

theorem Valid.append (hs : s.Valid h) (grow : Nat → Nat → Nat) (xs : List α) :
    (s.append grow xs h).1.Valid (s.append grow xs h).2 := by
  have hlen := hs.len_le_cells
  rcases Nat.lt_or_ge s.cap (s.len + xs.length) with hlt | hle
  · rw [append_of_lt hlt]
    refine ⟨Nat.le_add_right .., fun _ => ?_⟩
    simp only [cells_alloc_self, List.length_append, hs.length_read, List.length_replicate]
  · rw [append_of_le hle]
    refine ⟨hle, fun hpos => ?_⟩
    have hcells := hs.cells_length hpos
    rw [cells_set_self (hs.lt_length hpos)]
    simp only [List.length_append, List.length_take, List.length_drop, hcells]
    omega

/-- What a slice reads after an append does not depend on where it was written. -/
theorem Valid.read_append (hs : s.Valid h) (grow : Nat → Nat → Nat) (xs : List α) :
    (s.append grow xs h).1.read (s.append grow xs h).2 = s.read h ++ xs := by
  have htake : ∀ rest, (s.read h ++ xs ++ rest).take (s.len + xs.length) = s.read h ++ xs := by
    intro rest
    exact List.take_left' (by rw [List.length_append, hs.length_read])
  rcases Nat.lt_or_ge s.cap (s.len + xs.length) with hlt | hle
  · rw [append_of_lt hlt]
    simp only [read, cells_alloc_self]
    exact htake _
  · rw [append_of_le hle]
    rcases Nat.eq_zero_or_pos s.cap with hzero | hpos
    · have hxs : xs = [] := List.eq_nil_of_length_eq_zero (by omega)
      have hsl : s.len = 0 := by omega
      simp [read, hxs, hsl]
    · simp only [read, cells_set_self (hs.lt_length hpos)]
      exact htake _

/-- An append is not seen through a slice of another array. -/
theorem Valid.frame_append (ht : t.Valid h) (hapart : s.Apart t) (grow : Nat → Nat → Nat) (xs : List α) :
    t.Valid (s.append grow xs h).2 ∧ t.read (s.append grow xs h).2 = t.read h ∧ (s.append grow xs h).1.Apart t := by
  rcases Nat.eq_zero_or_pos t.cap with hzero | hpos
  · have hlen : t.len = 0 := by have := ht.len_le; omega
    refine ⟨⟨ht.len_le, fun hpos => absurd hpos (by omega)⟩, ?_, .inr (.inl hzero)⟩
    simp [read, hlen]
  have hlt := ht.lt_length hpos
  suffices hcells : (s.append grow xs h).2.cells t.array = h.cells t.array ∧ (s.append grow xs h).1.Apart t by
    obtain ⟨hcells, hapart'⟩ := hcells
    refine ⟨⟨ht.len_le, fun hpos => ?_⟩, ?_, hapart'⟩
    · rw [hcells, ht.cells_length hpos]
    · rw [read, hcells, read]
  rcases Nat.lt_or_ge s.cap (s.len + xs.length) with hgrow | hle
  · rw [append_of_lt hgrow]
    exact ⟨cells_alloc_of_lt hlt, .inr (.inr (Nat.ne_of_gt hlt))⟩
  · rw [append_of_le hle]
    refine ⟨?_, hapart⟩
    rcases hapart with hs0 | ht0 | hne
    · -- nothing fits into a slice without capacity, and then nothing was written
      have hxs : xs = [] := List.eq_nil_of_length_eq_zero (by omega)
      have hsl : s.len = 0 := by omega
      by_cases heq : s.array = t.array
      · simp only [hxs, hsl, heq, cells_set_self hlt]
        simp
      · exact cells_set_of_ne heq
    · omega
    · exact cells_set_of_ne hne

/-- Appending to the first part of a slice overwrites the next cell, and no other. -/
theorem Valid.append_upTo (hs : s.Valid h) {j : Nat} (hj : j < s.len) (grow : Nat → Nat → Nat) (x : α) :
    ∃ h', (s.upTo j).append grow [x] h = (s.upTo (j + 1), h') ∧ s.Valid h' ∧ s.read h' = (s.read h).set j x := by
  have hlen := hs.len_le
  have hpos : 0 < s.cap := by omega
  have hcells := hs.cells_length hpos
  have hle : (s.upTo j).len + [x].length ≤ (s.upTo j).cap := Nat.le_trans hj hlen
  have hwritten : (h.cells s.array).take j ++ [x] ++ (h.cells s.array).drop (j + 1) = (h.cells s.array).set j x := by
    rw [List.set_eq_take_append_cons_drop, if_pos (by omega), List.append_assoc]
    rfl
  refine ⟨h.set s.array ((h.cells s.array).set j x), ?_, ⟨hlen, fun _ => ?_⟩, ?_⟩
  · rw [append_of_le hle, ← hwritten]
    rfl
  · rw [cells_set_self (hs.lt_length hpos), List.length_set, hcells]
  · rw [read, cells_set_self (hs.lt_length hpos), read, List.take_set]

end Append

/-! ## Filtering in place -/

section Sweep

variable [Inhabited α] (grow : Nat → Nat → Nat) (p : α → Bool)

/-- One round of the loop of `sweep`: the element is read through the old slice, from the array as it is by now. -/
def sweepAt (s : Slice) (st : Slice × Heap α × List α) (i : Nat) : Slice × Heap α × List α :=
  match (s.read st.2.1)[i]? with
  | some x =>
      if p x then
        let (kept, h) := st.1.append grow [x] st.2.1
        (kept, h, st.2.2)
      else (st.1, st.2.1, st.2.2 ++ [x])
  | none => st

/-- `kept := s[:0]`, then `for _, x := range s` appends `x` to `kept` or else to a list of its own. -/
def sweep (s : Slice) (h : Heap α) : Slice × Heap α × List α :=
  (List.range s.len).foldl (sweepAt grow p s) (s.upTo 0, h, [])

/-- After `k` rounds: what was kept stands at the front, and what is yet to be read is as it was. -/
theorem sweep_rounds (hs : s.Valid h) {k : Nat} (hk : k ≤ s.len) :
    ∃ h', (List.range k).foldl (sweepAt grow p s) (s.upTo 0, h, []) =
        (s.upTo (((s.read h).take k).filter p).length, h', ((s.read h).take k).filter (!p ·)) ∧
      s.Valid h' ∧ (s.read h').take (((s.read h).take k).filter p).length = ((s.read h).take k).filter p ∧
      (s.read h').drop k = (s.read h).drop k := by
  induction k with
  | zero => exact ⟨h, rfl, hs, rfl, rfl⟩
  | succ k ih =>
      obtain ⟨h', hfold, hs', hkept, hrest⟩ := ih (by omega)
      obtain ⟨x, hx⟩ : ∃ x, (s.read h)[k]? = some x := ⟨_, List.getElem?_eq_getElem (hs.length_read ▸ hk)⟩
      have hx' : (s.read h')[k]? = some x := by
        rw [← hx, ← Nat.add_zero k, ← List.getElem?_drop, hrest, List.getElem?_drop]
      have htake : (s.read h).take (k + 1) = (s.read h).take k ++ [x] := by rw [List.take_add_one, hx]; rfl
      have hj : (((s.read h).take k).filter p).length ≤ k :=
        Nat.le_trans (List.length_filter_le ..) (List.length_take_le ..)
      rw [List.range_succ, List.foldl_append, hfold, htake, List.filter_append, List.filter_append]
      cases hp : p x with
      | false =>
          refine ⟨h', ?_, hs', ?_, ?_⟩
          · simp [sweepAt, hx', hp]
          · simpa [hp] using hkept
          · rw [← List.drop_drop, hrest, List.drop_drop]
      | true =>
          obtain ⟨h'', happend, hs'', hread⟩ :=
            hs'.append_upTo (j := (((s.read h).take k).filter p).length) (by omega) grow x
          refine ⟨h'', ?_, hs'', ?_, ?_⟩
          · simp [sweepAt, hx', hp, happend]
          · have hlt : (((s.read h).take k).filter p).length < (s.read h').length := by
              rw [hs'.length_read]
              omega
            rw [hread, List.filter_cons_of_pos hp, List.filter_nil, List.length_append, List.length_singleton,
              List.take_add_one, List.take_set_of_le (Nat.le_refl _), hkept, List.getElem?_set_self hlt]
            rfl
          · rw [hread, List.drop_set_of_lt (by omega), ← List.drop_drop, hrest, List.drop_drop]

theorem Valid.sweep (hs : s.Valid h) :
    (s.sweep grow p h).1.Valid (s.sweep grow p h).2.1 ∧
      (s.sweep grow p h).1.read (s.sweep grow p h).2.1 = (s.read h).filter p ∧
      (s.sweep grow p h).2.2 = (s.read h).filter (!p ·) := by
  obtain ⟨h', hfold, hs', hkept, _⟩ := sweep_rounds grow p hs (Nat.le_refl s.len)
  have hall : (s.read h).take s.len = s.read h := List.take_of_length_le (Nat.le_of_eq hs.length_read)
  rw [hall] at hfold hkept
  have hle : ((s.read h).filter p).length ≤ s.len := hs.length_read ▸ List.length_filter_le ..
  rw [Slice.sweep, hfold]
  exact ⟨hs'.upTo hle, (read_upTo hle).trans hkept, rfl⟩

end Sweep

end Slice

end Gopkg
