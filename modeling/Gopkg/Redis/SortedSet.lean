import Mathlib.Data.List.Nodup

/-!
# Sorted sets

The sorted sets of Redis, as far as members and scores go: a member has one score, and adding it again replaces the
score. The order by score is not kept.
-/

namespace Gopkg.Redis

structure SortedSet (α : Type) where
  entries : List (α × Int)
  nodup : (entries.map Prod.fst).Nodup

namespace SortedSet

variable {α : Type}

def empty : SortedSet α := ⟨[], .nil⟩

def members (z : SortedSet α) : List α := z.entries.map Prod.fst

/-- `ZCARD`. -/
def card (z : SortedSet α) : Nat := z.entries.length

/-- `ZREMRANGEBYSCORE`, with both ends in the range. -/
def removeByScore (z : SortedSet α) (lo hi : Int) : SortedSet α where
  entries := z.entries.filter fun p => !(decide (lo ≤ p.2) && decide (p.2 ≤ hi))
  nodup := z.nodup.sublist (List.filter_sublist.map _)

variable [DecidableEq α]

/-- `ZADD`. -/
def add (z : SortedSet α) (member : α) (score : Int) : SortedSet α where
  entries := (member, score) :: z.entries.filter fun p => p.1 ≠ member
  nodup := by
    refine List.nodup_cons.mpr ⟨?_, z.nodup.sublist (List.filter_sublist.map _)⟩
    simp

omit [DecidableEq α] in
theorem length_le_card {l : List α} (z : SortedSet α) (hn : l.Nodup) (hsub : l ⊆ z.members) : l.length ≤ z.card := by
  calc l.length ≤ z.members.length := hn.length_le_of_subset hsub
    _ = z.card := List.length_map _

theorem mem_add {z : SortedSet α} {member : α} {score : Int} {p : α × Int} :
    p ∈ (z.add member score).entries ↔ p = (member, score) ∨ (p ∈ z.entries ∧ p.1 ≠ member) := by
  simp [add]

omit [DecidableEq α] in
theorem mem_removeByScore {z : SortedSet α} {lo hi : Int} {p : α × Int} :
    p ∈ (z.removeByScore lo hi).entries ↔ p ∈ z.entries ∧ ¬ (lo ≤ p.2 ∧ p.2 ≤ hi) := by
  simp only [removeByScore, List.mem_filter, Bool.not_eq_true', Bool.and_eq_false_iff, decide_eq_false_iff_not,
    not_and_or]

end SortedSet

end Gopkg.Redis
