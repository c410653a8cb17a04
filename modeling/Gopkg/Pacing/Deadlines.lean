import Mathlib.Data.Int.Order.Basic
import Mathlib.Tactic.Linarith

/-!
# Writing to deadlines

Something is written again and again, each time for a deadline. How much can be written in a time follows from how the
deadlines are chosen, whatever the clock shows.
-/

namespace Gopkg.Pacing

structure Tick where
  deadline : Int
  written : Int
  deriving DecidableEq, Repr

/-- A deadline lies a period or more after the earlier ones, and not more than `slack` before what was written then. -/
structure Follows (period slack : Int) (x y : Tick) : Prop where
  spaced : x.deadline + period ≤ y.deadline
  recent : x.written ≤ y.deadline + slack

/-- The ticks of a run, the earliest one first. Nothing is written before its deadline. -/
structure Paced (period slack : Int) (l : List Tick) : Prop where
  follows : l.Pairwise (Follows period slack)
  due : ∀ x ∈ l, x.deadline ≤ x.written

variable {period slack a b : Int} {x : Tick} {l : List Tick}

theorem Paced.nil : Paced period slack [] :=
  ⟨.nil, nofun⟩

theorem Paced.snoc (h : Paced period slack l) (hfollows : ∀ y ∈ l, Follows period slack y x)
    (hdue : x.deadline ≤ x.written) : Paced period slack (l ++ [x]) where
  follows := by
    refine List.pairwise_append.mpr ⟨h.follows, List.pairwise_singleton _ _, fun y hy z hz => ?_⟩
    rw [List.mem_singleton.mp hz]
    exact hfollows y hy
  due := by
    refine List.forall_mem_append.mpr ⟨h.due, fun y hy => ?_⟩
    rw [List.mem_singleton.mp hy]
    exact hdue

theorem Paced.filter (h : Paced period slack l) (p : Tick → Bool) : Paced period slack (l.filter p) :=
  ⟨h.follows.filter p, fun x hx => h.due x (List.mem_filter.mp hx).1⟩

theorem Paced.of_cons (h : Paced period slack (x :: l)) : Paced period slack l :=
  ⟨h.follows.of_cons, fun y hy => h.due y (List.mem_cons_of_mem _ hy)⟩

/-- The last of `n` more ticks is written `n` periods after the first deadline, or later. -/
theorem Paced.mul_length_le (h : Paced period slack (x :: l)) (hb : ∀ y ∈ x :: l, y.written ≤ b) :
    x.deadline + period * l.length ≤ b := by
  induction l generalizing x with
  | nil =>
      have hdue := h.due x List.mem_cons_self
      have hx := hb x List.mem_cons_self
      simp only [List.length_nil, Nat.cast_zero, mul_zero, add_zero]
      exact hdue.trans hx
  | cons y l ih =>
      have hspaced := (List.rel_of_pairwise_cons h.follows List.mem_cons_self).spaced
      have hrest := ih h.of_cons fun z hz => hb z (List.mem_cons_of_mem _ hz)
      rw [List.length_cons, Nat.cast_succ]
      linarith

/-- What is written from `a` to `b` takes at most this time and two periods and the slack. -/
theorem Paced.window (h : Paced period slack l) (hab : a ≤ b) (hperiod : 0 ≤ period) (hslack : 0 ≤ slack + period)
    (hl : ∀ x ∈ l, a ≤ x.written ∧ x.written ≤ b) : period * l.length ≤ b - a + slack + 2 * period := by
  match l with
  | [] =>
      simp only [List.length_nil, Nat.cast_zero, mul_zero]
      linarith
  | [x] =>
      simp only [List.length_singleton, Nat.cast_one, mul_one]
      linarith
  | x :: y :: l =>
      have hrecent := (List.rel_of_pairwise_cons h.follows List.mem_cons_self).recent
      have hlast := h.of_cons.mul_length_le fun z hz => (hl z (List.mem_cons_of_mem _ hz)).2
      have hfirst := (hl x List.mem_cons_self).1
      rw [List.length_cons, List.length_cons, Nat.cast_succ, Nat.cast_succ]
      linarith

end Gopkg.Pacing
