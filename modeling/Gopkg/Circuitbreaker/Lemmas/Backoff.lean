import Mathlib.Algebra.Order.Ring.Int
import Gopkg.Circuitbreaker.Lemmas.Methods

/-!
# The length of an open period

The open timeout grows by the multiplier with every failed half-open period, up to its cap, and only a change of
the state moves the time from which it is measured.
-/

namespace Gopkg.Circuitbreaker

open Lts

variable {cfg : Config} {b b' : Breaker} {now start : Time} {m : Method} {e : Option BreakerError} {x : Called}
  {t evs : List Called} {c c' : Clocked} {k mul : Nat}

/-! ## One more failed period -/

/-- Capping after each factor is capping once. -/
theorem min_mul_pow {o cap : Int} (hcap : 0 ≤ cap) (hmul : 1 ≤ mul) (k : Nat) :
    min (min (o * mul ^ k) cap * mul) cap = min (o * mul ^ (k + 1)) cap := by
  have hle : cap ≤ cap * mul := le_mul_of_one_le_right hcap (by exact_mod_cast hmul)
  rw [pow_succ, ← mul_assoc]
  rcases le_total (o * (mul : Int) ^ k) cap with h | h
  · rw [min_eq_left h]
  · have hbig : cap ≤ o * (mul : Int) ^ k * mul := by
      calc cap ≤ cap * mul := hle
        _ ≤ o * (mul : Int) ^ k * mul := mul_le_mul_of_nonneg_right h (Int.natCast_nonneg mul)
    rw [min_eq_right h, min_eq_right hle, min_eq_right hbig]

/-- A whole multiplier, and timeouts for which its products are exact. -/
structure Capped (cfg : Config) (mul : Nat) : Prop where
  multiplier : cfg.backoffMultiplier = .ofNat mul
  factor : 1 ≤ mul
  positive : 0 < cfg.openTimeout
  capped : cfg.openTimeout ≤ cfg.maxOpenTimeout
  exact : cfg.maxOpenTimeout.toInt * mul < 2 ^ 63

theorem Capped.cap_pos (h : Capped cfg mul) : 0 < cfg.maxOpenTimeout :=
  Int64.lt_of_lt_of_le h.positive h.capped

theorem Capped.scale_toInt (h : Capped cfg mul) {d : Int64} (h₀ : 0 ≤ d.toInt)
    (hle : d.toInt ≤ cfg.maxOpenTimeout.toInt) : (cfg.backoffMultiplier.scale d).toInt = d.toInt * mul := by
  have hexact := h.exact
  have hnonneg : 0 ≤ d.toInt * mul := mul_nonneg h₀ (Int.natCast_nonneg mul)
  have hbound : d.toInt * mul ≤ cfg.maxOpenTimeout.toInt * mul :=
    mul_le_mul_of_nonneg_right hle (Int.natCast_nonneg mul)
  rw [h.multiplier]
  change (Int64.ofInt (d.toInt * mul)).toInt = _
  exact Int64.toInt_ofInt_of_le (by omega) (by omega)

theorem Capped.backoff_toInt (h : Capped cfg mul) (hc : b.config = cfg) (h₀ : 0 ≤ b.currentOpenTimeout.toInt)
    (hle : b.currentOpenTimeout.toInt ≤ cfg.maxOpenTimeout.toInt) :
    b.backoff.toInt = min (b.currentOpenTimeout.toInt * mul) cfg.maxOpenTimeout.toInt := by
  have hpos : cfg.backoffMultiplier.positive = true := by
    rw [h.multiplier]
    exact decide_eq_true h.factor
  have hscale := h.scale_toInt h₀ hle
  simp only [Breaker.backoff, hc, hpos, h.cap_pos, ↓reduceIte, true_and]
  split
  · rename_i hlt
    rw [Int64.lt_iff_toInt_lt, hscale] at hlt
    exact (min_eq_right hlt.le).symm
  · rename_i hlt
    rw [Int64.lt_iff_toInt_lt, hscale, not_lt] at hlt
    rw [hscale]
    exact (min_eq_left hlt).symm

/-! ## Histories -/

theorem failedPeriods_closes (h : x.closes = true) : failedPeriods (t ++ [x]) = 0 := by
  simp [failedPeriods, callsSince, h]

theorem failedPeriods_snoc (h : x.closes = false) :
    failedPeriods (t ++ [x]) = failedPeriods t + if x.reopens then 1 else 0 := by
  simp [failedPeriods, callsSince, h, List.countP_cons]

theorem periodStart_changed (h : x.before ≠ x.after) : periodStart start (t ++ [x]) = x.now := by
  simp [periodStart, h]

theorem periodStart_same (h : x.before = x.after) : periodStart start (t ++ [x]) = periodStart start t := by
  simp [periodStart, h]

/-! ## Runs -/

/-- What the timeout, the counter of the openings and the time of the last change say about the history. -/
structure Backoff (cfg : Config) (mul : Nat) (start : Time) (t : List Called) (b : Breaker) : Prop where
  config : b.config = cfg
  since : b.lastStateChange = periodStart start t
  opens : b.consecutiveOpens.toNat = failedPeriods t % 2 ^ 32
  timeout : b.currentOpenTimeout.toInt =
    min (cfg.openTimeout.toInt * mul ^ failedPeriods t) cfg.maxOpenTimeout.toInt

theorem Backoff.timeout_pos (hcap : Capped cfg mul) (h : Backoff cfg mul start t b) :
    0 < b.currentOpenTimeout.toInt := by
  have hpos : 0 < cfg.openTimeout.toInt := Int64.lt_iff_toInt_lt.mp hcap.positive
  have hmax : 0 < cfg.maxOpenTimeout.toInt := Int64.lt_iff_toInt_lt.mp hcap.cap_pos
  have hmul : (0 : Int) < mul := by exact_mod_cast hcap.factor
  rw [h.timeout]
  exact lt_min (mul_pos hpos (pow_pos hmul _)) hmax

/-- A call that stays in its state. -/
theorem Backoff.stay (h : Backoff cfg mul start t b) (hx : x.before = x.after) (hc : b'.config = b.config)
    (hl : b'.lastStateChange = b.lastStateChange) (ho : b'.consecutiveOpens = b.consecutiveOpens)
    (ht : b'.currentOpenTimeout = b.currentOpenTimeout) : Backoff cfg mul start (t ++ [x]) b' := by
  have hfailed : failedPeriods (t ++ [x]) = failedPeriods t := by
    rw [failedPeriods_snoc (by simp [Called.closes, hx])]
    cases hs : x.after <;> simp [Called.reopens, hx, hs]
  refine ⟨hc.trans h.config, ?_, ?_, ?_⟩
  · rw [hl, periodStart_same hx, h.since]
  · rw [ho, hfailed, h.opens]
  · rw [ht, hfailed, h.timeout]

/-- The breaker closes. -/
theorem Backoff.reclosed (hcap : Capped cfg mul) (h : Backoff cfg mul start t b) (hs : b.state ≠ .closed) :
    Backoff cfg mul start (t ++ [⟨m, now, e, b.state, .closed⟩]) (b.reclosed now) := by
  have hcloses : Called.closes ⟨m, now, e, b.state, .closed⟩ = true := by simp [Called.closes, hs]
  refine ⟨h.config, ?_, ?_, ?_⟩
  · rw [periodStart_changed hs]
    rfl
  · rw [failedPeriods_closes hcloses]
    rfl
  · rw [failedPeriods_closes hcloses, pow_zero, mul_one]
    change b.config.openTimeout.toInt = _
    rw [h.config]
    exact (min_eq_left (Int64.le_iff_toInt_le.mp hcap.capped)).symm

/-- The breaker moves on without a failed half-open period. -/
theorem Backoff.move (h : Backoff cfg mul start t b) (hx : x.before ≠ x.after) (hcloses : x.closes = false)
    (hreopens : x.reopens = false) (hc : b'.config = b.config) (hl : b'.lastStateChange = x.now)
    (ho : b'.consecutiveOpens = b.consecutiveOpens) (ht : b'.currentOpenTimeout = b.currentOpenTimeout) :
    Backoff cfg mul start (t ++ [x]) b' := by
  have hfailed : failedPeriods (t ++ [x]) = failedPeriods t := by
    rw [failedPeriods_snoc hcloses, hreopens]
    rfl
  refine ⟨hc.trans h.config, ?_, ?_, ?_⟩
  · rw [hl, periodStart_changed hx]
  · rw [ho, hfailed, h.opens]
  · rw [ht, hfailed, h.timeout]

theorem Backoff.reopened (hcap : Capped cfg mul) (h : Backoff cfg mul start t b) (hs : b.state = .halfOpen) :
    Backoff cfg mul start (t ++ [⟨m, now, e, b.state, .opened⟩]) (b.reopened now) := by
  have hfailed : failedPeriods (t ++ [⟨m, now, e, b.state, .opened⟩]) = failedPeriods t + 1 := by
    rw [failedPeriods_snoc (by simp [Called.closes])]
    simp [Called.reopens, hs]
  have hle : b.currentOpenTimeout.toInt ≤ cfg.maxOpenTimeout.toInt := by
    rw [h.timeout]
    exact min_le_right _ _
  refine ⟨h.config, ?_, ?_, ?_⟩
  · rw [periodStart_changed (by simp [hs])]
    rfl
  · change (b.consecutiveOpens + 1).toNat = _
    rw [hfailed, UInt32.toNat_add, h.opens, UInt32.toNat_one, Nat.mod_add_mod]
  · change b.backoff.toInt = _
    rw [hcap.backoff_toInt h.config (h.timeout_pos hcap).le hle, h.timeout, hfailed]
    exact min_mul_pow (Int64.lt_iff_toInt_lt.mp hcap.cap_pos).le hcap.factor _

theorem Backoff.change (hcap : Capped cfg mul) (h : Backoff cfg mul start t b) (hch : Change b now m e b') :
    Backoff cfg mul start (t ++ [⟨m, now, e, b.state, b'.state⟩]) b' := by
  cases hch with
  | pass _ | slot _ _ | reject | calm _ | succeed _ _ | lateSuccess _ | ignore _ | fail _ _ _ | lateFailure _ _
  | resetClosed _ => exact h.stay rfl rfl rfl rfl rfl
  | probe hs _ =>
      exact h.move (by simp [hs]) (by simp [Called.closes]) (by simp [Called.reopens]) rfl rfl rfl rfl
  | trip _ hs _ =>
      exact h.move (by simp [hs, Breaker.tripped]) (by simp [Called.closes, Breaker.tripped])
        (by simp [Called.reopens, hs]) rfl rfl rfl rfl
  | close hs => exact h.reclosed hcap (by simp [hs])
  | reset hs => exact h.reclosed hcap hs
  | reopen _ hs => exact h.reopened hcap hs

theorem Backoff.run (hcap : Capped cfg mul) (hr : Run MethodStep (.init cfg start) t c) :
    Backoff cfg mul start t c.breaker := by
  refine invariant_of_change hr ⟨rfl, rfl, rfl, ?_⟩ fun _ _ _ _ _ _ h hch => h.change hcap hch
  change cfg.openTimeout.toInt = min (cfg.openTimeout.toInt * mul ^ 0) _
  rw [pow_zero, mul_one]
  exact (min_eq_left (Int64.le_iff_toInt_le.mp hcap.capped)).symm

/-- An open breaker lets a call through only when its timeout is over. -/
theorem elapsed_of_allow {d : Int64} {last : Time} (hd : 0 < d.toInt) (h : d ≤ timeSince now last) :
    d.toInt ≤ now - last := by
  rw [Int64.le_iff_toInt_le, timeSince, Int64.toInt_ofInt_of_le (by omega) (by omega)] at h
  omega

end Gopkg.Circuitbreaker
