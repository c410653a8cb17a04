import Gopkg.Stream.Blocks
import Gopkg.Word.Exact

/-!
# Chunks of a slice

`Chunk` of `slicex/slicex.go`. An `int` has 64 bits. There is memory for every slice, so that `make` panics on a
negative capacity only.
-/

namespace Gopkg.Slicex

open Word

variable {α : Type*}

inductive Panic
  | chunkSize
  | capOutOfRange
  | sliceBounds
  deriving DecidableEq, Repr

def Panic.message : Panic → String
  | .chunkSize => "slicex: Chunk n must be > 0"
  | .capOutOfRange => "runtime error: makeslice: cap out of range"
  | .sliceBounds => "runtime error: slice bounds out of range"

/-- The elements of a slice. Their number is an `int`. -/
structure Slice (α : Type*) where
  elems : List α
  length_lt : elems.length < 2 ^ 63

def Slice.len (xs : Slice α) : Int64 := Int64.ofNat xs.elems.length

/-- `in[i:j]`, for a `j` that is not past the end. -/
def Slice.cut (xs : Slice α) (i j : Int64) : Except Panic (List α) :=
  if 0 ≤ i ∧ i ≤ j then .ok ((xs.elems.take j.toInt.toNat).drop i.toInt.toNat) else .error .sliceBounds

def chunkEnd (xs : Slice α) (n i : Int64) : Int64 := if i + n > xs.len then xs.len else i + n

theorem Slice.cut_ok {xs : Slice α} {i j : Int64} {c : List α} (h : xs.cut i j = .ok c) :
    (0 ≤ i ∧ i ≤ j) ∧ c = (xs.elems.take j.toInt.toNat).drop i.toInt.toNat := by
  unfold cut at h
  split at h
  next hbounds =>
    cases h
    exact ⟨hbounds, rfl⟩
  next => cases h

/-- A turn of the loop that does not panic moves the index forward. -/
theorem lt_next {xs : Slice α} {n i : Int64} {c : List α} (hn : 0 < n) (hi : i < xs.len)
    (hc : xs.cut i (chunkEnd xs n i) = .ok c) : i < i + n := by
  obtain ⟨⟨_, hle⟩, _⟩ := Slice.cut_ok hc
  unfold chunkEnd at hle
  rw [Int64.lt_iff_toInt_lt] at hi ⊢
  split at hle
  next hend =>
    rw [gt_iff_lt, Int64.lt_iff_toInt_lt] at hend
    exact Int.lt_trans hi hend
  next =>
    rw [Int64.le_iff_toInt_le] at hle
    refine Int.lt_iff_le_and_ne.mpr ⟨hle, fun heq => ?_⟩
    have hzero : n = 0 := Int64.add_eq_left.mp (Int64.toInt_inj.mp heq).symm
    exact absurd hn (hzero ▸ Int64.lt_irrefl)

/-- The loop, with the chunks that it has appended. -/
def chunkLoop (xs : Slice α) (n : Int64) (hn : 0 < n) (i : Int64) (chunks : List (List α)) :
    Except Panic (List (List α)) :=
  if hi : i < xs.len then
    match hc : xs.cut i (chunkEnd xs n i) with
    | .error p => .error p
    | .ok c =>
        have := lt_next hn hi hc
        chunkLoop xs n hn (i + n) (chunks ++ [c])
  else .ok chunks
termination_by (xs.len.toInt - i.toInt).toNat
decreasing_by
  rw [Int64.lt_iff_toInt_lt] at *
  omega

def chunk (xs : Slice α) (n : Int64) : Except Panic (List (List α)) :=
  if hn : n ≤ 0 then .error .chunkSize
  else if xs.len = 0 then .ok []
  else if (xs.len + n - 1) / n < 0 then .error .capOutOfRange
  else chunkLoop xs n (Int64.not_le.mp hn) 0 []

/-! ## The loop -/

section Loop

variable {xs : Slice α} {n i : Int64} {hn : 0 < n} {chunks : List (List α)}

theorem Slice.len_toInt (xs : Slice α) : xs.len.toInt = xs.elems.length := Int64.toInt_ofNat_of_lt xs.length_lt

theorem chunkEnd_toInt (hfits : Fits (i.toInt + n.toInt)) :
    (chunkEnd xs n i).toInt = min (i.toInt + n.toInt) xs.elems.length := by
  have hadd := toInt_add_iff.mpr hfits
  have hlen := xs.len_toInt
  unfold chunkEnd
  split
  next hend =>
    rw [gt_iff_lt, Int64.lt_iff_toInt_lt] at hend
    omega
  next hend =>
    rw [gt_iff_lt, Int64.lt_iff_toInt_lt] at hend
    omega

/-- A turn whose index does not wrap around cuts the next piece off. -/
theorem cut_chunkEnd (hn : 0 < n) (hi : 0 ≤ i) (hlt : i < xs.len) (hfits : Fits (i.toInt + n.toInt)) :
    xs.cut i (chunkEnd xs n i) = .ok ((xs.elems.drop i.toInt.toNat).take n.toInt.toNat) := by
  have hend : (chunkEnd xs n i).toInt = _ := chunkEnd_toInt hfits
  rw [Int64.lt_iff_toInt_lt, Int64.toInt_zero] at hn
  rw [Int64.lt_iff_toInt_lt, xs.len_toInt] at hlt
  have hi' := Int64.le_iff_toInt_le.mp hi
  rw [Int64.toInt_zero] at hi'
  have hle : i ≤ chunkEnd xs n i := by
    rw [Int64.le_iff_toInt_le]
    omega
  rw [Slice.cut, if_pos ⟨hi, hle⟩, List.drop_take, List.take_eq_take_iff.mpr]
  rw [List.length_drop]
  omega

theorem chunkLoop_done (hi : ¬ i < xs.len) : chunkLoop xs n hn i chunks = .ok chunks := by
  rw [chunkLoop, dif_neg hi]

theorem chunkLoop_step {c : List α} (hi : i < xs.len) (hc : xs.cut i (chunkEnd xs n i) = .ok c) :
    chunkLoop xs n hn i chunks = chunkLoop xs n hn (i + n) (chunks ++ [c]) := by
  rw [chunkLoop, dif_pos hi]
  split
  next herr => cases herr.symm.trans hc
  next hok =>
    cases hok.symm.trans hc
    rfl

theorem chunkLoop_panic {p : Panic} (hi : i < xs.len) (hc : xs.cut i (chunkEnd xs n i) = .error p) :
    chunkLoop xs n hn i chunks = .error p := by
  rw [chunkLoop, dif_pos hi]
  split
  next herr =>
    cases herr.symm.trans hc
    rfl
  next hok => cases hok.symm.trans hc

theorem chunkLoop_eq (hsum : (xs.elems.length : Int) + n.toInt ≤ 2 ^ 63) (hi : 0 ≤ i) :
    chunkLoop xs n hn i chunks = .ok (chunks ++ Stream.pieces n.toInt.toNat (xs.elems.drop i.toInt.toNat)) := by
  have hpos := Int64.lt_iff_toInt_lt.mp hn
  rw [Int64.toInt_zero] at hpos
  -- below the length the next index is still a word
  have hfits : ∀ i : Int64, 0 ≤ i → i < xs.len → Fits (i.toInt + n.toInt) := by
    intro i hi hlt
    rw [Int64.lt_iff_toInt_lt, xs.len_toInt] at hlt
    rw [Int64.le_iff_toInt_le, Int64.toInt_zero] at hi
    rw [Fits]
    omega
  fun_induction chunkLoop xs n hn i chunks with
  | case1 i chunks hlt p hc => cases hc.symm.trans (cut_chunkEnd hn hi hlt (hfits i hi hlt))
  | case2 i chunks hlt c hc _ ih =>
      have hadd := toInt_add_iff.mpr (hfits i hi hlt)
      cases hc.symm.trans (cut_chunkEnd hn hi hlt (hfits i hi hlt))
      rw [Int64.le_iff_toInt_le, Int64.toInt_zero] at hi
      rw [Int64.lt_iff_toInt_lt, xs.len_toInt] at hlt
      have hnext : 0 ≤ i + n := by
        rw [Int64.le_iff_toInt_le, Int64.toInt_zero]
        omega
      have hdrop : xs.elems.drop i.toInt.toNat ≠ [] := by
        rw [Ne, List.drop_eq_nil_iff]
        omega
      rw [ih hnext, Stream.pieces_cons (by omega) hdrop, List.drop_drop, hadd, Int.toNat_add hi (Int.le_of_lt hpos),
        List.append_assoc]
      rfl
  | case3 i chunks hlt =>
      rw [Int64.lt_iff_toInt_lt, xs.len_toInt] at hlt
      rw [List.drop_of_length_le (by omega), Stream.pieces_nil, List.append_nil]

/-- The first turn never wraps around. -/
theorem chunkLoop_first (hne : xs.elems ≠ []) :
    chunkLoop xs n hn 0 [] = chunkLoop xs n hn n [xs.elems.take n.toInt.toNat] := by
  have hlt : (0 : Int64) < xs.len := by
    rw [Int64.lt_iff_toInt_lt, xs.len_toInt, Int64.toInt_zero]
    exact Int.natCast_pos.mpr (List.length_pos_iff.mpr hne)
  have hfits : Fits ((0 : Int64).toInt + n.toInt) := by
    rw [Int64.toInt_zero, Int.zero_add]
    exact fits_toInt n
  rw [chunkLoop_step hlt (cut_chunkEnd hn (Int64.le_refl 0) hlt hfits), Int64.zero_add]
  rfl

/-- An index that wraps around is before the start of the slice. -/
theorem chunkLoop_wraps (hlt : n < xs.len) (hwrap : 2 ^ 63 ≤ 2 * n.toInt) :
    chunkLoop xs n hn n chunks = .error .sliceBounds := by
  have hpos := Int64.lt_iff_toInt_lt.mp hn
  rw [Int64.toInt_zero] at hpos
  have hhi := n.toInt_lt
  have hnext : (n + n).toInt = 2 * n.toInt - 2 ^ 64 := by
    rw [Int64.toInt_add, bmod_of_le (by omega) (by omega)]
    omega
  have hend : chunkEnd xs n n = n + n := by
    refine if_neg fun h => ?_
    rw [gt_iff_lt, Int64.lt_iff_toInt_lt, xs.len_toInt] at h
    omega
  refine chunkLoop_panic hlt (if_neg fun h => ?_)
  have hle := h.2
  rw [hend, Int64.le_iff_toInt_le] at hle
  omega

end Loop

/-! ## Every slice and size -/

section Capacity

variable {xs : Slice α} {n : Int64}

/-- The capacity is negative when the sum wraps around to an `int` that is not closer to zero than `n`. -/
theorem capacity_neg_iff (hn : 0 < n) (hne : xs.elems ≠ []) : (xs.len + n - 1) / n < 0 ↔
    2 ^ 63 < (xs.elems.length : Int) + n.toInt ∧ (xs.elems.length : Int) + 2 * n.toInt ≤ 2 ^ 64 + 1 := by
  have hpos := Int64.lt_iff_toInt_lt.mp hn
  rw [Int64.toInt_zero] at hpos
  have hlen : 0 < (xs.elems.length : Int) := Int.natCast_pos.mpr (List.length_pos_iff.mpr hne)
  have hlength := xs.length_lt
  have hhi := n.toInt_lt
  have hsum : (xs.len + n - 1).toInt = ((xs.elems.length : Int) + n.toInt - 1).bmod (2 ^ 64) := by
    rw [Int64.toInt_sub, Int64.toInt_add, Int.bmod_sub_bmod, xs.len_toInt]
    rfl
  have hdiv : ¬ (xs.len + n - 1 = Int64.minValue ∧ n = -1) := by
    rintro ⟨_, rfl⟩
    exact absurd hn (by decide)
  rw [lt_zero_iff, toInt_div_iff.mpr hdiv, hsum]
  by_cases hwrap : 2 ^ 63 < (xs.elems.length : Int) + n.toInt
  · rw [bmod_of_le (by omega) (by omega), tdiv_neg_iff (by omega) hpos]
    omega
  · have hfits : Fits ((xs.elems.length : Int) + n.toInt - 1) := by
      rw [Fits]
      omega
    have hnonneg := Int.tdiv_nonneg (a := (xs.elems.length : Int) + n.toInt - 1) (by omega) (Int.le_of_lt hpos)
    rw [bmod_eq_iff_fits.mpr hfits]
    omega

/-- The slices and sizes that `Chunk` is right about. -/
def Safe (xs : Slice α) (n : Int64) : Prop :=
  xs.elems = [] ∨ (xs.elems.length : Int) + n.toInt ≤ 2 ^ 63 ∨
    ((xs.elems.length : Int) ≤ n.toInt ∧ 2 ^ 64 + 1 < (xs.elems.length : Int) + 2 * n.toInt)

theorem chunk_nil (hn : 0 < n) (hnil : xs.elems = []) : chunk xs n = .ok [] := by
  have hlen : xs.len = 0 := by rw [Slice.len, hnil]; rfl
  rw [chunk, dif_neg (Int64.not_le.mpr hn), if_pos hlen]

theorem chunk_of_ne_nil (hn : 0 < n) (hne : xs.elems ≠ []) : chunk xs n =
    if 2 ^ 63 < (xs.elems.length : Int) + n.toInt ∧ (xs.elems.length : Int) + 2 * n.toInt ≤ 2 ^ 64 + 1 then
      .error .capOutOfRange
    else chunkLoop xs n hn 0 [] := by
  have hlen : xs.len ≠ 0 := by
    rw [ne_zero_iff, xs.len_toInt]
    exact Int.natCast_ne_zero.mpr (Nat.ne_of_gt (List.length_pos_iff.mpr hne))
  rw [chunk, dif_neg (Int64.not_le.mpr hn), if_neg hlen]
  simp only [capacity_neg_iff hn hne]

theorem chunk_of_safe (hn : 0 < n) (hsafe : Safe xs n) : chunk xs n = .ok (Stream.pieces n.toInt.toNat xs.elems) := by
  by_cases hne : xs.elems = []
  · rw [chunk_nil hn hne, hne, Stream.pieces_nil]
  · rw [chunk_of_ne_nil hn hne, if_neg]
    · rcases hsafe with hnil | hsum | ⟨hle, _⟩
      · exact absurd hnil hne
      · exact chunkLoop_eq hsum (Int64.le_refl 0)
      · -- one piece holds the whole slice
        have hpos : 0 < n.toInt.toNat := by
          have := List.length_pos_iff.mpr hne
          omega
        have hdone : ¬ n < xs.len := by
          rw [Int64.lt_iff_toInt_lt, xs.len_toInt]
          omega
        rw [chunkLoop_first hne, chunkLoop_done hdone, Stream.pieces_cons hpos hne,
          List.drop_of_length_le (by omega), Stream.pieces_nil]
    · rintro ⟨hwrap, hcap⟩
      rcases hsafe with hnil | hsum | ⟨_, hlarge⟩
      · exact hne hnil
      · omega
      · omega

theorem chunk_of_not_safe (hn : 0 < n) (hsafe : ¬ Safe xs n) : ∃ p, chunk xs n = .error p := by
  rw [Safe, not_or, not_or] at hsafe
  obtain ⟨hne, hsum, hlarge⟩ := hsafe
  rw [chunk_of_ne_nil hn hne]
  split
  next => exact ⟨_, rfl⟩
  next hcap =>
    have hlt : n < xs.len := by
      rw [Int64.lt_iff_toInt_lt, xs.len_toInt]
      omega
    have hlength := xs.length_lt
    exact ⟨_, (chunkLoop_first hne).trans (chunkLoop_wraps hlt (by omega))⟩

end Capacity

/-- `Chunk` cuts a slice into pieces of any size, but for sizes near the greatest `int`. -/
theorem chunk_cuts_iff (xs : Slice α) (n : Int64) (hn : 0 < n) :
    (∃ chunks, chunk xs n = .ok chunks ∧ Stream.Cut n.toInt.toNat xs.elems chunks) ↔ Safe xs n := by
  constructor
  · rintro ⟨chunks, hok, _⟩
    by_contra hsafe
    obtain ⟨p, herr⟩ := chunk_of_not_safe hn hsafe
    cases hok.symm.trans herr
  · intro hsafe
    have hpos : 0 < n.toInt.toNat := by
      rw [Int64.lt_iff_toInt_lt, Int64.toInt_zero] at hn
      omega
    exact ⟨_, chunk_of_safe hn hsafe, Stream.cut_pieces hpos _⟩

/-- Five elements by two. -/
theorem chunk_cuts_iff_five :
    ∃ chunks, chunk (⟨[1, 2, 3, 4, 5], by decide⟩ : Slice Nat) 2 = .ok chunks ∧
      Stream.Cut 2 [1, 2, 3, 4, 5] chunks :=
  (chunk_cuts_iff ⟨[1, 2, 3, 4, 5], by decide⟩ 2 (by decide)).mpr (.inr (.inl (by decide)))

/-- Two elements by the greatest `int`. -/
theorem chunk_panics : chunk (⟨[1, 2], by decide⟩ : Slice Nat) Int64.maxValue = .error .capOutOfRange := by
  decide

end Gopkg.Slicex
