import Mathlib.Data.Rat.Floor
import Gopkg.Ratelimit.Theorems

/-!
# Does a limiter ever hand out a token?

The calls read one clock, which does not go back. After a time without grants the bucket holds what that time brings
in, up to its capacity; a `time.Duration` holds no more than `maxDuration` of it.
-/

namespace Gopkg.Ratelimit

open Lts

/-- A limiter, and the time that its clock shows. -/
structure Clocked where
  limiter : Limiter
  now : Int

inductive ClockStep : Clocked → List Event → Clocked → Prop
  | T_Allow {c : Clocked} :
      ClockStep c [.allowed (c.limiter.allow c.now).2] { c with limiter := (c.limiter.allow c.now).1 }
  | T_Wait {c : Clocked} :
      ClockStep c [.attempted (c.limiter.attempt c.now).2] { c with limiter := (c.limiter.attempt c.now).1 }
  | T_Tokens {c : Clocked} :
      ClockStep c [.tokens (c.limiter.refill c.now).tokens] { c with limiter := c.limiter.refill c.now }
  | T_Close {c : Clocked} : ClockStep c [.closed] { c with limiter := c.limiter.close }
  | T_Advance {c : Clocked} {now : Int} : c.now ≤ now → ClockStep c [] { c with now := now }

/-- The longest `time.Duration`, in nanoseconds. -/
def maxDuration : Int := 2 ^ 63 - 1

variable {capacity rate : ℚ} {l : Limiter} {c c' c₀ : Clocked} {t evs : List Event} {now : Int}

/-! ## `refill` in the order of time -/

theorem seconds_le_zero_iff {d : Int} : seconds d ≤ 0 ↔ d ≤ 0 := by
  constructor
  · intro h
    have hcast : (d : ℚ) ≤ 0 := by
      unfold seconds at h
      linarith
    exact_mod_cast hcast
  · intro h
    simpa [seconds] using seconds_le h

theorem seconds_add (d d' : Int) : seconds (d + d') = seconds d + seconds d' := by
  unfold seconds
  push_cast
  ring

theorem exists_seconds_ge (x : ℚ) : ∃ d, maxDuration ≤ d ∧ x ≤ seconds d := by
  refine ⟨max maxDuration ⌈x * 10 ^ 9⌉, le_max_left _ _, le_trans ?_ (seconds_le (le_max_right _ _))⟩
  rw [seconds, le_div_iff₀ (by norm_num)]
  exact Int.le_ceil _

/-- What `Sub` makes of a time that has passed. -/
def passed (last now : Int) : Int := min maxDuration (now - last)

/-- A refill brings in what the time since the last one is worth, and the bucket runs over. -/
theorem refill_eq (hle : l.tokens ≤ l.capacity) (hnow : l.lastRefill ≤ now) : l.refill now =
    { l with
      tokens := min l.capacity (l.tokens + l.refillRate * seconds (passed l.lastRefill now)), lastRefill := now } := by
  have hsub : sub now l.lastRefill = passed l.lastRefill now := by
    unfold sub passed maxDuration
    omega
  rw [Limiter.refill, hsub]
  dsimp only
  split
  next hzero =>
    have hsame : now = l.lastRefill := by
      rw [seconds_le_zero_iff, passed, maxDuration] at hzero
      omega
    have hnone : seconds (passed l.lastRefill now) = 0 := by simp [hsame, passed, maxDuration, seconds]
    rw [hnone, mul_zero, add_zero, min_eq_right hle, hsame]
  next =>
    rw [mul_comm]
    congr 1
    split
    next h => exact (min_eq_left h.le).symm
    next h => exact (min_eq_right (not_lt.mp h)).symm

/-- Two times that pass one after the other are worth as much as both together, or more. -/
theorem passed_le_add {a b d : Int} (hab : a ≤ b) (hbd : b ≤ d) : passed a d ≤ passed a b + passed b d := by
  unfold passed maxDuration
  omega

theorem seconds_passed_nonneg {a b : Int} (hab : a ≤ b) : 0 ≤ seconds (passed a b) := by
  have hle : 0 ≤ passed a b := by
    unfold passed maxDuration
    omega
  simpa [seconds] using seconds_le hle

/-! ## Steps -/

/-- Every step is a call, or it moves the clock on. -/
theorem ClockStep.step (hs : ClockStep c evs c') : (Step c.limiter evs c'.limiter ∧ c'.now = c.now) ∨
    (c'.limiter = c.limiter ∧ c.now ≤ c'.now) := by
  cases hs with
  | T_Allow => exact .inl ⟨.L_Allow _, rfl⟩
  | T_Wait => exact .inl ⟨.L_Wait _, rfl⟩
  | T_Tokens => exact .inl ⟨.L_Tokens _, rfl⟩
  | T_Close => exact .inl ⟨.L_Close, rfl⟩
  | T_Advance hle => exact .inr ⟨rfl, hle⟩

/-- The bucket is left alone, or it is refilled with the time that the clock shows, and then a token may be taken. -/
theorem ClockStep.cases (hs : ClockStep c evs c') : c.now ≤ c'.now ∧
    ((c'.limiter.tokens = c.limiter.tokens ∧ c'.limiter.lastRefill = c.limiter.lastRefill) ∨
      (c'.now = c.now ∧ c'.limiter = c.limiter.refill c.now) ∨
      (c'.now = c.now ∧ c'.limiter = (c.limiter.refill c.now).take ∧ granted evs = 1)) := by
  cases hs with
  | T_Allow =>
      refine ⟨Int.le_refl _, .inr ?_⟩
      unfold Limiter.allow
      dsimp only
      split
      next => exact .inr ⟨rfl, rfl, rfl⟩
      next => exact .inl ⟨rfl, rfl⟩
  | T_Wait =>
      refine ⟨Int.le_refl _, ?_⟩
      unfold Limiter.attempt
      dsimp only
      split
      next => exact .inl ⟨rfl, rfl⟩
      next =>
        right
        split
        next => exact .inr ⟨rfl, rfl, rfl⟩
        next => exact .inl ⟨rfl, rfl⟩
  | T_Tokens => exact ⟨Int.le_refl _, .inr (.inl ⟨rfl, rfl⟩)⟩
  | T_Close => exact ⟨Int.le_refl _, .inl ⟨rfl, rfl⟩⟩
  | T_Advance hle => exact ⟨hle, .inl ⟨rfl, rfl⟩⟩

/-- The bucket does not hold more than it can, and the clock is not behind the last refill. -/
structure Ordered (capacity rate : ℚ) (c : Clocked) : Prop where
  lawful : Lawful capacity rate c.limiter
  last : c.limiter.lastRefill ≤ c.now

theorem Ordered.refill_eq (h : Ordered capacity rate c) (hnow : c.now ≤ now) : c.limiter.refill now =
    { c.limiter with
      tokens := min capacity (c.limiter.tokens + rate * seconds (passed c.limiter.lastRefill now))
      lastRefill := now } := by
  obtain ⟨⟨rfl, rfl, _, hle⟩, hlast⟩ := h
  exact Ratelimit.refill_eq hle (Int.le_trans hlast hnow)

theorem Ordered.step (h : Ordered capacity rate c) (hc : 0 < capacity) (hr : 0 < rate) (hs : ClockStep c evs c') :
    Ordered capacity rate c' := by
  constructor
  · rcases hs.step with ⟨hcall, _⟩ | ⟨hsame, _⟩
    · exact h.lawful.step hc hr hcall
    · rw [hsame]
      exact h.lawful
  · have hrefill := h.refill_eq (Int.le_refl c.now)
    obtain ⟨hnow, ⟨_, hlast⟩ | ⟨_, heq⟩ | ⟨_, heq, _⟩⟩ := hs.cases
    · rw [hlast]
      exact Int.le_trans h.last hnow
    · rw [heq, hrefill]
      exact hnow
    · rw [heq, hrefill]
      exact hnow

/-! ## What time brings in -/

/-- From `c₀` on no token was handed out: the bucket holds what the time since then has brought in. -/
def Kept (capacity rate : ℚ) (c₀ c : Clocked) : Prop := ∀ now, c.now ≤ now →
  min capacity (c₀.limiter.tokens + rate * seconds (passed c₀.limiter.lastRefill now)) ≤ (c.limiter.refill now).tokens

theorem Kept.refl (h : Ordered capacity rate c) : Kept capacity rate c c := by
  intro now hnow
  rw [h.refill_eq hnow]

theorem Kept.step (h : Kept capacity rate c₀ c) (ho : Ordered capacity rate c) (hr : 0 < rate)
    (hlast : c₀.limiter.lastRefill ≤ c.now) (hs : ClockStep c evs c') (ho' : Ordered capacity rate c')
    (hg : granted evs = 0) : Kept capacity rate c₀ c' := by
  intro now hnow
  obtain ⟨hle, ⟨htokens, hsame⟩ | ⟨heq, hrefill⟩ | ⟨_, _, hone⟩⟩ := hs.cases
  · have hheld := h now (Int.le_trans hle hnow)
    rw [ho.refill_eq (Int.le_trans hle hnow)] at hheld
    rw [ho'.refill_eq hnow, htokens, hsame]
    exact hheld
  · -- what was held at the refill, and what has come in since then
    have hheld := h c.now (Int.le_refl _)
    have htime := seconds_le (passed_le_add hlast (Int.le_trans hle hnow))
    have hlast' : c'.limiter.lastRefill = c.now := by rw [hrefill, ho.refill_eq (Int.le_refl _)]
    rw [ho'.refill_eq hnow, hlast']
    rw [← hrefill] at hheld
    rcases min_le_iff.mp hheld with hfull | hheld
    · have hgain := mul_nonneg hr.le (seconds_passed_nonneg (Int.le_trans hle hnow))
      rw [min_eq_left (by linarith : capacity ≤ c'.limiter.tokens + rate * seconds (passed c.now now))]
      exact min_le_left _ _
    · refine min_le_min_left _ ?_
      have hworth := mul_le_mul_of_nonneg_left htime hr.le
      rw [seconds_add, mul_add] at hworth
      linarith
  · omega

theorem Kept.run (h₀ : Ordered capacity rate c₀) (hc : 0 < capacity) (hr : 0 < rate) (hrun : Run ClockStep c₀ t c) :
    Ordered capacity rate c ∧ c₀.now ≤ c.now ∧ (granted t = 0 → Kept capacity rate c₀ c) := by
  refine hrun.invariant (I := fun t c => Ordered capacity rate c ∧ c₀.now ≤ c.now ∧
    (granted t = 0 → Kept capacity rate c₀ c)) ⟨h₀, Int.le_refl _, fun _ => .refl h₀⟩ ?_
  rintro t c evs c' ⟨ho, hnow, hkept⟩ hs
  have ho' := ho.step hc hr hs
  refine ⟨ho', Int.le_trans hnow hs.cases.1, fun hg => ?_⟩
  obtain ⟨hg₁, hg₂⟩ : granted t = 0 ∧ granted evs = 0 := by
    rw [granted, List.countP_append] at hg
    exact Nat.add_eq_zero_iff.mp hg
  exact (hkept hg₁).step ho hr (Int.le_trans h₀.last hnow) hs ho' hg₂

/-! ## Grants -/

/-- `Allow` gets a token, and a pass of `Wait` gets one unless the limiter is closed. -/
def Grants (c : Clocked) : Prop :=
  (c.limiter.allow c.now).2 = true ∧ ((c.limiter.attempt c.now).2 = .granted ↔ c.limiter.closed = false)

theorem grants_iff : Grants c ↔ 1 ≤ (c.limiter.refill c.now).tokens := by
  unfold Grants Limiter.allow Limiter.attempt
  dsimp only
  by_cases h : 1 ≤ (c.limiter.refill c.now).tokens
  · cases hclosed : c.limiter.closed with
    | true => simp [h]
    | false => simp [h]
  · simp [h]

/-- A limiter hands out a token after the time that `Wait` computes for it, exactly when its capacity is one token at
least and that time is no longer than the longest duration. -/
theorem grants_after_wait_iff (capacity rate : ℚ) (start : Int) (l₀ : Limiter)
    (hnew : new capacity rate start = some l₀) (t : List Event) (c : Clocked)
    (hrun : Run ClockStep ⟨l₀, start⟩ t c) :
    (∀ t' c', Run ClockStep c t' c' → granted t' = 0 →
      (1 - c.limiter.tokens) / rate ≤ seconds (c'.now - c.now) → Grants c') ↔
      1 ≤ capacity ∧ (1 - c.limiter.tokens) / rate ≤ seconds maxDuration := by
  obtain ⟨hc, hr, hlawful⟩ := new_lawful hnew
  have h₀ : Ordered capacity rate ⟨l₀, start⟩ := by
    refine ⟨hlawful, ?_⟩
    unfold new at hnew
    split at hnew
    next => cases hnew
    next =>
      cases hnew
      exact Int.le_refl _
  have ho := (Kept.run h₀ hc hr hrun).1
  constructor
  · intro hgrants
    -- wait so long that `Sub` saturates
    obtain ⟨d, hd, hwait⟩ := exists_seconds_ge ((1 - c.limiter.tokens) / rate)
    have hpassed : passed c.limiter.lastRefill (c.now + d) = maxDuration := by
      have hlast := ho.last
      unfold passed
      omega
    have hadvance : c.now ≤ c.now + d := by
      unfold maxDuration at hd
      omega
    have hgrant := hgrants _ _ (.single (.T_Advance hadvance)) rfl (by simpa using hwait)
    rw [grants_iff, ho.refill_eq hadvance, hpassed, le_min_iff] at hgrant
    refine ⟨hgrant.1, ?_⟩
    rw [div_le_iff₀ hr, mul_comm]
    linarith [hgrant.2]
  · rintro ⟨hone, hlong⟩ t' c' hrun' hg hwait
    obtain ⟨ho', hnow, hkept⟩ := Kept.run ho hc hr hrun'
    rw [grants_iff]
    have htime : (1 - c.limiter.tokens) / rate ≤ seconds (passed c.limiter.lastRefill c'.now) := by
      rw [passed, min_def]
      split
      next => exact hlong
      next => exact hwait.trans (seconds_le (Int.sub_le_sub_left ho.last _))
    rw [div_le_iff₀ hr, mul_comm] at htime
    exact (le_min hone (by linarith)).trans (hkept hg c'.now (Int.le_refl _))

/-- The one token is taken, and a second later there is another. -/
theorem grants_after_wait_iff_second : ∃ (l₀ : Limiter) (t : List Event) (c : Clocked), new 1 1 0 = some l₀ ∧
    Run ClockStep ⟨l₀, 0⟩ t c ∧ c.limiter.tokens = 0 ∧ Grants { c with now := 10 ^ 9 } := by
  have hrun : Run ClockStep (⟨⟨1, 1, 1, 0, false⟩, 0⟩ : Clocked) _ _ := .single .T_Allow
  have hzero : ((⟨1, 1, 1, 0, false⟩ : Limiter).allow 0).1.tokens = 0 := by decide +kernel
  refine ⟨_, _, _, rfl, hrun, hzero, ?_⟩
  refine (grants_after_wait_iff 1 1 0 _ rfl _ _ hrun).mpr ⟨le_rfl, ?_⟩ [] _ (.single (.T_Advance ?_)) rfl ?_
  · rw [hzero]
    norm_num [seconds, maxDuration]
  · norm_num
  · rw [hzero]
    norm_num [seconds]

/-- A bucket for half a token is accepted by `New`, and an hour later it still has none to hand out. -/
theorem small_bucket_starves : ∃ (l₀ : Limiter) (t : List Event) (c : Clocked), new (1 / 2) 1 0 = some l₀ ∧
    Run ClockStep ⟨l₀, 0⟩ t c ∧ granted t = 0 ∧ (1 - l₀.tokens) / 1 ≤ seconds c.now ∧
    (c.limiter.allow c.now).2 = false ∧ (c.limiter.attempt c.now).2 ≠ .granted := by
  have hrun : Run ClockStep (⟨⟨1 / 2, 1, 1 / 2, 0, false⟩, 0⟩ : Clocked) _ _ :=
    .single (.T_Advance (by decide : (0 : Int) ≤ 3600 * 10 ^ 9))
  refine ⟨_, _, _, by decide +kernel, hrun, rfl, ?_, by decide +kernel, by decide +kernel⟩
  norm_num [seconds]

end Gopkg.Ratelimit
