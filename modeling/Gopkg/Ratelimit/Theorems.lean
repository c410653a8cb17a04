import Mathlib.Tactic.Linarith
import Mathlib.Tactic.Ring
import Gopkg.Lts.Potential
import Gopkg.Ratelimit.Limiter

/-!
# Theorems about the token bucket

The potential of a limiter is what it holds, less what the clock has brought in since the beginning. No call
raises it, and every token that is handed out lowers it by one.
-/

namespace Gopkg.Ratelimit

open Lts

variable {capacity rate : ℚ} {l l' : Limiter} {t evs : List Event}

structure Lawful (capacity rate : ℚ) (l : Limiter) : Prop where
  capacity_eq : l.capacity = capacity
  rate_eq : l.refillRate = rate
  nonneg : 0 ≤ l.tokens
  le : l.tokens ≤ capacity

/-! ## `refill` -/

theorem seconds_le {d d' : Int} (h : d ≤ d') : seconds d ≤ seconds d' := by
  have hq : (d : ℚ) ≤ d' := by exact_mod_cast h
  unfold seconds
  linarith

/-- The clock has not moved on, or the time since the last refill, and no more than that, brings in tokens. -/
theorem refill_cases (l : Limiter) (now : Int) : l.refill now = l ∨
    ∃ elapsed, 0 < elapsed ∧ elapsed ≤ seconds now - seconds l.lastRefill ∧
      l.refill now = { l with tokens := min l.capacity (l.tokens + elapsed * l.refillRate), lastRefill := now } := by
  by_cases h : seconds (sub now l.lastRefill) ≤ 0
  · exact .inl (if_pos h)
  · refine .inr ⟨seconds (sub now l.lastRefill), not_le.mp h, ?_, ?_⟩
    · have hlt : l.lastRefill < now := by
        refine Int.not_le.mp fun hle => h ?_
        have hsub : sub now l.lastRefill ≤ 0 := by
          unfold sub
          omega
        simpa [seconds] using seconds_le hsub
      have hsub : sub now l.lastRefill ≤ now - l.lastRefill := by
        unfold sub
        omega
      refine (seconds_le hsub).trans_eq ?_
      unfold seconds
      push_cast
      ring
    · rw [Limiter.refill]
      dsimp only
      rw [if_neg h]
      congr 1
      split
      · exact (min_eq_left (le_of_lt ‹_›)).symm
      · exact (min_eq_right (not_lt.mp ‹_›)).symm

theorem lastRefill_le_refill (l : Limiter) (now : Int) : l.lastRefill ≤ (l.refill now).lastRefill := by
  rcases refill_cases l now with h | ⟨elapsed, hpos, hle, h⟩
  · rw [h]
  · rw [h]
    refine Int.not_lt.mp fun hlt => ?_
    have := seconds_le (le_of_lt hlt)
    dsimp only at this
    linarith

theorem Lawful.refill (h : Lawful capacity rate l) (hc : 0 < capacity) (hr : 0 < rate) (now : Int) :
    Lawful capacity rate (l.refill now) := by
  rcases refill_cases l now with heq | ⟨elapsed, hpos, _, heq⟩
  · rw [heq]
    exact h
  · obtain ⟨rfl, rfl, hnonneg, _⟩ := h
    have hgain : 0 < elapsed * l.refillRate := mul_pos hpos hr
    rw [heq]
    exact ⟨rfl, rfl, le_min (le_of_lt hc) (by linarith), min_le_left _ _⟩

/-- What is held, less what has come in. -/
def potential (rate : ℚ) (l : Limiter) : ℚ := l.tokens - rate * seconds l.lastRefill

theorem Lawful.potential_refill (h : Lawful capacity rate l) (hr : 0 < rate) (now : Int) :
    potential rate (l.refill now) ≤ potential rate l := by
  rcases refill_cases l now with heq | ⟨elapsed, _, hle, heq⟩
  · rw [heq]
  · obtain ⟨_, rfl, _, _⟩ := h
    have hin : l.refillRate * elapsed ≤ l.refillRate * (seconds now - seconds l.lastRefill) :=
      mul_le_mul_of_nonneg_left hle (le_of_lt hr)
    have hmin := min_le_right l.capacity (l.tokens + elapsed * l.refillRate)
    rw [heq]
    unfold potential
    dsimp only
    linarith

/-! ## Steps -/

/-- A token is taken from a bucket that has one. -/
def Limiter.take (l : Limiter) : Limiter := { l with tokens := l.tokens - 1 }

/-- A call refills the bucket or does not look at it, and then it takes a token or does not. -/
theorem Step.cases (hs : Step l evs l') : (l'.tokens = l.tokens ∧ l'.lastRefill = l.lastRefill ∧
      l'.capacity = l.capacity ∧ l'.refillRate = l.refillRate ∧ granted evs = 0) ∨
    ∃ now, (l' = l.refill now ∧ granted evs = 0) ∨
      (1 ≤ (l.refill now).tokens ∧ l' = (l.refill now).take ∧ granted evs = 1) := by
  cases hs with
  | L_Allow now =>
      refine .inr ⟨now, ?_⟩
      unfold Limiter.allow
      dsimp only
      split
      · exact .inr ⟨‹_›, rfl, rfl⟩
      · exact .inl ⟨rfl, rfl⟩
  | L_Wait now =>
      unfold Limiter.attempt
      dsimp only
      split
      · exact .inl ⟨rfl, rfl, rfl, rfl, rfl⟩
      · refine .inr ⟨now, ?_⟩
        split
        · exact .inr ⟨‹_›, rfl, rfl⟩
        · exact .inl ⟨rfl, rfl⟩
  | L_Tokens now => exact .inr ⟨now, .inl ⟨rfl, rfl⟩⟩
  | L_Close => exact .inl ⟨rfl, rfl, rfl, rfl, rfl⟩

theorem Lawful.step (h : Lawful capacity rate l) (hc : 0 < capacity) (hr : 0 < rate) (hs : Step l evs l') :
    Lawful capacity rate l' := by
  rcases hs.cases with ⟨ht, _, hcap, hrate, _⟩ | ⟨now, ⟨rfl, _⟩ | ⟨hone, rfl, _⟩⟩
  · exact ⟨hcap.trans h.capacity_eq, hrate.trans h.rate_eq, ht ▸ h.nonneg, ht ▸ h.le⟩
  · exact h.refill hc hr now
  · obtain ⟨hcap, hrate, _, hle⟩ := h.refill hc hr now
    refine ⟨hcap, hrate, ?_, ?_⟩
    · exact sub_nonneg.mpr hone
    · exact (sub_le_self _ zero_le_one).trans hle

theorem Lawful.potential_step (h : Lawful capacity rate l) (hr : 0 < rate) (hs : Step l evs l') :
    (granted evs : ℚ) + potential rate l' ≤ potential rate l := by
  rcases hs.cases with ⟨ht, hlast, _, _, hg⟩ | ⟨now, ⟨rfl, hg⟩ | ⟨_, rfl, hg⟩⟩
  · rw [hg, potential, potential, ht, hlast, Nat.cast_zero, zero_add]
  · rw [hg, Nat.cast_zero, zero_add]
    exact h.potential_refill hr now
  · have := h.potential_refill hr now
    rw [hg, Nat.cast_one]
    unfold potential Limiter.take at *
    dsimp only at *
    linarith

theorem Step.lastRefill_le (hs : Step l evs l') : l.lastRefill ≤ l'.lastRefill := by
  rcases hs.cases with ⟨_, hlast, _⟩ | ⟨now, ⟨rfl, _⟩ | ⟨_, rfl, _⟩⟩
  · exact le_of_eq hlast.symm
  · exact lastRefill_le_refill l now
  · exact lastRefill_le_refill l now

/-! ## Runs -/

theorem new_lawful {now : Int} (h : new capacity rate now = some l) :
    0 < capacity ∧ 0 < rate ∧ Lawful capacity rate l := by
  unfold new at h
  split at h
  · cases h
  · rename_i hpos
    rw [not_or, not_le, not_le] at hpos
    cases h
    exact ⟨hpos.1, hpos.2, rfl, rfl, le_of_lt hpos.1, le_rfl⟩

/-- At every point of a run, with any clock readings, the bucket holds between zero and `capacity` tokens; the
time of the last refill never goes back; and between two points the tokens handed out are at most `capacity`
and what the rate brings in between the two refills. -/
theorem granted_le (capacity rate : ℚ) (now : Int) (l₀ : Limiter) (hnew : new capacity rate now = some l₀)
    (t₁ t₂ : List Event) (l₁ l₂ : Limiter) (hr₁ : Run Step l₀ t₁ l₁) (hr₂ : Run Step l₁ t₂ l₂) :
    0 ≤ l₁.tokens ∧ l₁.tokens ≤ capacity ∧ l₁.lastRefill ≤ l₂.lastRefill ∧
      (granted t₂ : ℚ) ≤ capacity + rate * seconds (l₂.lastRefill - l₁.lastRefill) := by
  obtain ⟨hc, hr, h₀⟩ := new_lawful hnew
  have h₁ : Lawful capacity rate l₁ := hr₁.stateInvariant h₀ fun _ _ _ h hs => h.step hc hr hs
  have h₂ : Lawful capacity rate l₂ := hr₂.stateInvariant h₁ fun _ _ _ h hs => h.step hc hr hs
  have hpot := hr₂.potential (c := fun t => (granted t : ℚ)) (φ := potential rate) rfl
    (fun t t' => by rw [granted, List.countP_append]; push_cast; rfl) h₁
    (fun _ _ _ h hs => h.step hc hr hs) fun _ _ _ h hs => h.potential_step hr hs
  refine ⟨h₁.nonneg, h₁.le, hr₂.monotone fun _ _ _ hs => hs.lastRefill_le, ?_⟩
  have hsec : seconds (l₂.lastRefill - l₁.lastRefill) = seconds l₂.lastRefill - seconds l₁.lastRefill := by
    unfold seconds
    push_cast
    ring
  have := h₁.le
  have := h₂.nonneg
  rw [hsec]
  unfold potential at hpot
  linarith

/-- A clock that goes back: two tokens are handed out, and a third call gets none. -/
theorem granted_le_back : ∃ (l₀ l : Limiter) (t : List Event), new 2 1 0 = some l₀ ∧ Run Step l₀ t l ∧
    t = [.allowed true, .attempted .granted, .allowed false] ∧ l.lastRefill = 10 ^ 9 ∧
    (granted t : ℚ) ≤ 2 + 1 * seconds (l.lastRefill - l₀.lastRefill) := by
  have h₁ : Run Step (⟨2, 1, 2, 0, false⟩ : Limiter) _ _ := .single (.L_Allow (10 ^ 9))
  have h₂ := h₁.snoc (.L_Wait (-7))
  have h₃ := h₂.snoc (.L_Allow 0)
  refine ⟨_, _, _, rfl, h₃, by decide +kernel, by decide +kernel, ?_⟩
  exact (granted_le 2 1 0 _ rfl _ _ _ _ .refl h₃).2.2.2

end Gopkg.Ratelimit
