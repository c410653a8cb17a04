import Mathlib.Algebra.Ring.Int.Defs
import Gopkg.Circuitbreaker.Lemmas.Methods

/-!
# The counters of the breaker

What the counters are in each state, and what they say about the history of the calls.
-/

namespace Gopkg.Circuitbreaker

open Lts

variable {cfg : Config} {b b' : Breaker} {now start : Time} {m : Method} {e : Option BreakerError} {x : Called}
  {t evs : List Called} {c c' : Clocked}

/-! ## Bounds -/

/-- What holds of the counters in each state. -/
structure Bounded (cfg : Config) (b : Breaker) : Prop where
  config : b.config = cfg
  closed : b.state = .closed → b.failures < cfg.failureThreshold ∧ b.successes = 0 ∧ b.halfOpenRequests = 0 ∧
    b.consecutiveOpens = 0 ∧ b.currentOpenTimeout = cfg.openTimeout
  halfOpen : b.state = .halfOpen → b.successes < cfg.successThreshold ∧ 1 ≤ b.halfOpenRequests.toNat ∧
    b.halfOpenRequests.toNat ≤ max 1 cfg.halfOpenMaxRequests.toNat
  opened : b.state = .opened → b.halfOpenRequests = 0

theorem Bounded.new (hF : 0 < cfg.failureThreshold) (now : Time) : Bounded cfg (Breaker.new cfg now) where
  config := rfl
  closed _ := ⟨hF, rfl, rfl, rfl, rfl⟩
  halfOpen h := nomatch h
  opened h := nomatch h

theorem Bounded.reclosed (h : Bounded cfg b) (hF : 0 < cfg.failureThreshold) : Bounded cfg (b.reclosed now) where
  config := h.config
  closed _ := ⟨hF, rfl, rfl, rfl, congrArg Config.openTimeout h.config⟩
  halfOpen h := nomatch h
  opened h := nomatch h

/-- An open breaker has no half-open requests; nothing else is asked of it. -/
theorem Bounded.of_opened (hc : b.config = cfg) (hs : b.state = .opened) (hr : b.halfOpenRequests = 0) :
    Bounded cfg b where
  config := hc
  closed h := nomatch hs.symm.trans h
  halfOpen h := nomatch hs.symm.trans h
  opened _ := hr

theorem Bounded.of_halfOpen (hc : b.config = cfg) (hs : b.state = .halfOpen)
    (hb : b.successes < cfg.successThreshold ∧ 1 ≤ b.halfOpenRequests.toNat ∧
      b.halfOpenRequests.toNat ≤ max 1 cfg.halfOpenMaxRequests.toNat) : Bounded cfg b where
  config := hc
  closed h := nomatch hs.symm.trans h
  halfOpen _ := hb
  opened h := nomatch hs.symm.trans h

theorem Bounded.of_closed (hc : b.config = cfg) (hs : b.state = .closed) (hb : b.failures < cfg.failureThreshold ∧
    b.successes = 0 ∧ b.halfOpenRequests = 0 ∧ b.consecutiveOpens = 0 ∧ b.currentOpenTimeout = cfg.openTimeout) :
    Bounded cfg b where
  config := hc
  closed _ := hb
  halfOpen h := nomatch hs.symm.trans h
  opened h := nomatch hs.symm.trans h

theorem Bounded.change (hF : 0 < cfg.failureThreshold) (hS : 0 < cfg.successThreshold) (h : Bounded cfg b)
    (hch : Change b now m e b') : Bounded cfg b' := by
  have hc := h.config
  cases hch with
  | pass _ | reject | ignore _ | resetClosed _ => exact h
  | probe _ _ => exact .of_halfOpen hc rfl ⟨hS, Nat.le_refl 1, Nat.le_max_left _ _⟩
  | slot hs hlt =>
      obtain ⟨hsucc, _, _⟩ := h.halfOpen hs
      rw [hc] at hlt
      refine .of_halfOpen hc hs ⟨hsucc, ?_, ?_⟩
      · rw [toNat_succ_of_lt hlt]
        exact Nat.le_add_left 1 _
      · rw [toNat_succ_of_lt hlt]
        exact Nat.le_trans (UInt32.lt_iff_toNat_lt.mp hlt) (Nat.le_max_right _ _)
  | calm hs => exact .of_closed hc hs ⟨hF, (h.closed hs).2⟩
  | close _ | reset _ => exact h.reclosed hF
  | succeed hs hlt =>
      rw [hc] at hlt
      exact .of_halfOpen hc hs ⟨hlt, (h.halfOpen hs).2⟩
  | lateSuccess hs | lateFailure _ hs => exact .of_opened hc hs (h.opened hs)
  | fail _ hs hlt =>
      rw [hc] at hlt
      exact .of_closed hc hs ⟨hlt, (h.closed hs).2⟩
  | trip _ _ _ | reopen _ _ => exact .of_opened hc rfl rfl

theorem Bounded.run (hF : 0 < cfg.failureThreshold) (hS : 0 < cfg.successThreshold)
    (hr : Run MethodStep (.init cfg start) t c) : Bounded cfg c.breaker :=
  invariant_of_change (I := fun _ b => Bounded cfg b) hr (.new hF start) fun _ _ _ _ _ _ h hch => h.change hF hS hch

/-! ## The failures of a closed period -/

theorem counting_iff (bucket : String) :
    cfg.counting bucket = true ↔ bucket ≠ "" ∧ bucket ∉ cfg.nonRetryableErrors := by
  simp [Config.counting, Config.isRetryableError]

theorem counts_failure (cfg : Config) (bucket : String) (now : Time) (e : Option BreakerError) (s s' : State) :
    Called.counts cfg ⟨.recordFailure bucket, now, e, s, s'⟩ = cfg.counting bucket := by
  rw [Bool.eq_iff_iff, counting_iff]
  exact decide_eq_true_iff

theorem callsSince_snoc (p : Called → Bool) (t : List Called) (x : Called) :
    callsSince p (t ++ [x]) = if p x then [] else x :: callsSince p t := by
  cases h : p x <;> simp [callsSince, h]

theorem streak_restart (h : (x.closes || x.method == .recordSuccess) = true) : streak cfg (t ++ [x]) = 0 := by
  rw [streak, callsSince_snoc, if_pos h]
  rfl

theorem streak_snoc (h : (x.closes || x.method == .recordSuccess) = false) :
    streak cfg (t ++ [x]) = streak cfg t + if x.counts cfg then 1 else 0 := by
  rw [streak, callsSince_snoc, h, if_neg Bool.false_ne_true, List.countP_cons]
  rfl

/-- In a closed period the failures are the streak, and it is below the threshold. -/
structure Streak (cfg : Config) (t : List Called) (b : Breaker) : Prop where
  config : b.config = cfg
  below : b.state = .closed → b.failures < cfg.failureThreshold
  count : b.state = .closed → b.failures.toNat = streak cfg t

theorem Streak.of_not_closed (hc : b.config = cfg) (hs : b.state ≠ .closed) : Streak cfg t b :=
  ⟨hc, fun h => absurd h hs, fun h => absurd h hs⟩

/-- A closed period begins, or goes on after a success. -/
theorem Streak.restart (hF : 0 < cfg.failureThreshold) (hc : b.config = cfg) (hf : b.failures = 0)
    (hx : (x.closes || x.method == .recordSuccess) = true) : Streak cfg (t ++ [x]) b := by
  refine ⟨hc, fun _ => ?_, fun _ => ?_⟩
  · rw [hf]
    exact hF
  · rw [hf, streak_restart hx]
    rfl

/-- A call that leaves the failures of a closed period alone. -/
theorem Streak.keep (h : Streak cfg t b) (hx : (x.closes || x.method == .recordSuccess) = false)
    (hcount : x.counts cfg = false) : Streak cfg (t ++ [x]) b := by
  refine ⟨h.config, h.below, fun hs => ?_⟩
  rw [h.count hs, streak_snoc hx, hcount]
  rfl

theorem Streak.change (hF : 0 < cfg.failureThreshold) (h : Streak cfg t b) (hch : Change b now m e b') :
    Streak cfg (t ++ [⟨m, now, e, b.state, b'.state⟩]) b' := by
  have hc := h.config
  cases hch with
  | pass _ | reject | resetClosed _ => exact h.keep (by simp [Called.closes]) rfl
  | ignore hcount =>
      rw [hc] at hcount
      exact h.keep (by simp [Called.closes]) ((counts_failure ..).trans hcount)
  | probe _ _ | trip _ _ _ | reopen _ _ => exact .of_not_closed hc nofun
  | slot hs _ | succeed hs _ | lateSuccess hs | lateFailure _ hs =>
      refine .of_not_closed hc ?_
      dsimp only
      rw [hs]
      exact nofun
  | calm _ | close _ => exact .restart hF hc rfl (by simp)
  | reset hs =>
      refine .restart hF hc rfl ?_
      simp [Called.closes, Breaker.reclosed, hs]
  | fail hcount hs hlt =>
      rw [hc] at hcount hlt
      refine ⟨hc, fun _ => hlt, fun _ => ?_⟩
      rw [streak_snoc (by simp [Called.closes]), counts_failure, hcount, ← h.count hs]
      exact toNat_succ_of_lt (h.below hs)

theorem Streak.run (hF : 0 < cfg.failureThreshold) (hr : Run MethodStep (.init cfg start) t c) :
    Streak cfg t c.breaker :=
  invariant_of_change hr ⟨rfl, fun _ => hF, fun _ => rfl⟩ fun _ _ _ _ _ _ h hch => h.change hF hch

/-! ## Tripping -/

theorem Change.trips_iff (hch : Change b now m e b') : (b.state = .closed ∧ b'.state = .opened) ↔
    ∃ bucket, m = .recordFailure bucket ∧ b.config.counting bucket = true ∧ b.state = .closed ∧
      b.config.failureThreshold ≤ b.failures + 1 := by
  constructor
  · rintro ⟨hs, hs'⟩
    cases hch with
    | trip hcount _ hle => exact ⟨_, rfl, hcount, hs, hle⟩
    | pass _ | reject | calm _ | ignore _ | fail _ _ _ | resetClosed _ => exact nomatch hs.symm.trans hs'
    | probe h _ | slot h _ | close h | succeed h _ | lateSuccess h | reopen _ h | lateFailure _ h =>
        exact nomatch hs.symm.trans h
    | reset h => exact absurd hs h
  · rintro ⟨bucket, rfl, hcount, hs, hle⟩
    cases hch with
    | trip _ _ _ => exact ⟨hs, rfl⟩
    | ignore h => exact nomatch hcount.symm.trans h
    | fail _ _ hlt => exact absurd hlt (UInt32.not_lt.mpr hle)
    | reopen _ h | lateFailure _ h => exact nomatch hs.symm.trans h

/-- The threshold is reached by the failure that follows `n - 1` others. -/
theorem Streak.reached_iff (h : Streak cfg t b) (hs : b.state = .closed) :
    cfg.failureThreshold ≤ b.failures + 1 ↔ streak cfg t + 1 = cfg.failureThreshold.toNat := by
  have hlt := h.below hs
  rw [UInt32.le_iff_toNat_le, toNat_succ_of_lt hlt, h.count hs]
  rw [UInt32.lt_iff_toNat_lt, h.count hs] at hlt
  omega

/-! ## Resets -/

/-- The state, the counters and the open timeout. -/
def Breaker.counters (b : Breaker) : State × UInt32 × UInt32 × UInt32 × UInt32 × Int64 :=
  (b.state, b.failures, b.successes, b.halfOpenRequests, b.consecutiveOpens, b.currentOpenTimeout)

/-- A closed breaker has no counter but its failures. -/
structure Rested (cfg : Config) (b : Breaker) : Prop where
  config : b.config = cfg
  closed : b.state = .closed →
    b.successes = 0 ∧ b.halfOpenRequests = 0 ∧ b.consecutiveOpens = 0 ∧ b.currentOpenTimeout = cfg.openTimeout

theorem Rested.change (h : Rested cfg b) (hch : Change b now m e b') : Rested cfg b' := by
  have hc := h.config
  cases hch with
  | pass _ | reject | ignore _ | resetClosed _ => exact h
  | probe _ _ | trip _ _ _ | reopen _ _ => exact ⟨hc, nofun⟩
  | slot hs _ | succeed hs _ | lateSuccess hs | lateFailure _ hs => exact ⟨hc, fun h => nomatch hs.symm.trans h⟩
  | calm hs | fail _ hs _ => exact ⟨hc, fun _ => h.closed hs⟩
  | close _ | reset _ => exact ⟨hc, fun _ => ⟨rfl, rfl, rfl, congrArg Config.openTimeout hc⟩⟩

theorem Rested.run (hr : Run MethodStep (.init cfg start) t c) : Rested cfg c.breaker :=
  invariant_of_change (I := fun _ b => Rested cfg b) hr ⟨rfl, fun _ => ⟨rfl, rfl, rfl, rfl⟩⟩
    fun _ _ _ _ _ _ h hch => h.change hch

/-- `Reset` leaves a closed breaker as it is, with its failures. -/
theorem Rested.counters_reset_iff (h : Rested cfg b) :
    (b.reset now).counters = (Breaker.new cfg now).counters ↔ ¬ (b.state = .closed ∧ 0 < b.failures) := by
  by_cases hs : b.state = .closed
  · obtain ⟨hsuccesses, hrequests, hopens, htimeout⟩ := h.closed hs
    rw [reset_closed hs]
    simp [Breaker.counters, Breaker.new, hs, hsuccesses, hrequests, hopens, htimeout]
  · rw [reset_not_closed hs, ← h.config]
    exact ⟨fun _ hclosed => hs hclosed.1, fun _ => rfl⟩

/-- As long as there were fewer counting failures than the threshold, each failure that the breaker counts is one of
them. -/
structure Budget (cfg : Config) (t : List Called) (b : Breaker) : Prop where
  config : b.config = cfg
  closed : t.countP (Called.counts cfg) < cfg.failureThreshold.toNat →
    b.state = .closed ∧ b.failures.toNat ≤ t.countP (Called.counts cfg)

theorem Budget.change (h : Budget cfg t b) (hch : Change b now m e b') :
    Budget cfg (t ++ [⟨m, now, e, b.state, b'.state⟩]) b' := by
  refine ⟨hch.config_eq.trans h.config, fun hlt => ?_⟩
  rw [List.countP_append, List.countP_singleton] at hlt ⊢
  obtain ⟨hs, hle⟩ := h.closed (Nat.lt_of_le_of_lt (Nat.le_add_right _ _) hlt)
  cases hch with
  | pass _ | reject | ignore _ | resetClosed _ => exact ⟨hs, Nat.le_add_right_of_le hle⟩
  | calm _ => exact ⟨hs, Nat.zero_le _⟩
  | probe hs' _ | slot hs' _ | close hs' | succeed hs' _ | lateSuccess hs' | reopen _ hs' | lateFailure _ hs' =>
      exact nomatch hs.symm.trans hs'
  | reset hs' => exact absurd hs hs'
  | fail hcount _ _ =>
      rw [h.config] at hcount
      rw [counts_failure, if_pos hcount]
      exact ⟨hs, Nat.le_trans (toNat_succ_le _) (Nat.add_le_add_right hle 1)⟩
  | trip hcount _ hthreshold =>
      rw [h.config] at hcount hthreshold
      rw [counts_failure, if_pos hcount] at hlt
      rw [UInt32.le_iff_toNat_le] at hthreshold
      have hsucc := toNat_succ_le b.failures
      omega

/-- A breaker that is as good as new stays closed for as many failures as a new one. -/
theorem Budget.run (hc : b.config = cfg) (hb : b.state = .closed ∧ b.failures = 0)
    (hr : Run MethodStep ⟨b, now⟩ t c) : Budget cfg t c.breaker :=
  invariant_of_change hr ⟨hc, fun _ => ⟨hb.1, by simp [hb.2]⟩⟩ fun _ _ _ _ _ _ h hch => h.change hch

end Gopkg.Circuitbreaker
