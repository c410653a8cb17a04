import Mathlib.Algebra.Ring.Nat
import Gopkg.Circuitbreaker.Lemmas.Backoff
import Gopkg.Circuitbreaker.Lemmas.Counters
import Gopkg.Circuitbreaker.Lemmas.Recovery
import Gopkg.Circuitbreaker.Lemmas.Periods
import Gopkg.Circuitbreaker.Lemmas.Slots

/-!
# Theorems about the circuit breaker

Whether the breaker can always close again, whether only the probes of a half-open period decide that period, and
what the counters are worth when the methods are called in any order.
-/

namespace Gopkg.Circuitbreaker

open Lts

/-! ## Closing again -/

/-- A quiet breaker can be closed by waiting and by successful calls exactly when the probes it has left
reach the success threshold. -/
theorem canClose_iff_recoverable (cfg : Config) (hS : 0 < cfg.successThreshold)
    (hH : 0 < cfg.halfOpenMaxRequests) (now : Time) (t : List Event) (w : World)
    (hr : Run Step (World.init cfg now) t w) (hq : w.calls = []) :
    CanClose w ↔ w.breaker.Recoverable := by
  have hp := Probing.run hS hH hr
  have hc := hp.config
  constructor
  · intro hclose
    refine Classical.byContradiction fun hn => ?_
    exact (doomed_of_not_recoverable hq hn).not_canClose (by rw [hc]; exact hH) hclose
  · intro h
    exact canClose_of_recoverable hq (by rw [hc]; exact hS) (by rw [hc]; exact hp) h

/-- An `Execute` call that runs alone and ends with the outcome `o`. -/
def alone (o : Outcome) : List Act := [.execute, .report 0 o]

/-- Five failures open a breaker with the default configuration. After the open timeout one probe
succeeds; the threshold is two, and the period has no second probe. -/
def wedge : List Act :=
  (List.replicate 5 (alone (.failure "timeout"))).flatten ++ [.advance (30 * 10 ^ 9)] ++ alone .success

theorem wedge_runs : (exec World.act (World.init defaultConfig 0) wedge).isSome := by decide

theorem canClose_iff_recoverable_wedge :
    let w := (after World.act (World.init defaultConfig 0) wedge).2
    (CanClose w ↔ w.breaker.Recoverable) ∧ w.calls = [] ∧ ¬ w.breaker.Recoverable :=
  ⟨canClose_iff_recoverable defaultConfig (by decide) (by decide) 0 _ _ (run_after act_sound wedge_runs)
    (by decide), by decide, by decide⟩

/-- The default configuration reaches a half-open state from which no wait and no success closes it. -/
theorem breaker_wedges : ¬ ∀ (cfg : Config), 0 < cfg.failureThreshold → 0 < cfg.successThreshold →
    0 < cfg.halfOpenMaxRequests → ∀ (now : Time) (t : List Event) (w : World),
    Run Step (World.init cfg now) t w → w.calls = [] → CanClose w := by
  intro h
  have hq : (after World.act (World.init defaultConfig 0) wedge).2.calls = [] := by decide
  have hn : ¬ (after World.act (World.init defaultConfig 0) wedge).2.breaker.Recoverable := by decide
  exact (doomed_of_not_recoverable hq hn).not_canClose (by decide)
    (h defaultConfig (by decide) (by decide) (by decide) 0 _ _ (run_after act_sound wedge_runs) hq)

/-! ## Deciding a half-open period -/

/-- In a run whose deciding reports all come from the current half-open period, every step obeys the law
of the probes: the breaker closes only after enough of this period's probes succeeded, and it reopens only
on a counting failure of one of them. -/
theorem probeLaw_of_timely (cfg : Config) (now : Time) (t : List Event) (w : World) (evs : List Event)
    (w' : World) (hr : Run (Restrict ExecuteStep Timely) (World.init cfg now) t w)
    (hs : Restrict ExecuteStep Timely w evs w') : ProbeLaw t w evs w' := by
  have hc : Counted t w := by
    refine hr.invariant ?_ fun _ _ _ _ h hs => h.step hs.1 hs.2
    intro h
    simp [World.init, Breaker.new] at h
  exact hc.probeLaw hs.1 hs.2

/-- One failure trips, one success closes, and there is no wait between. -/
def touchy : Config :=
  { defaultConfig with failureThreshold := 1, successThreshold := 1, openTimeout := 0 }

/-- Two calls start while the breaker is closed. One fails and opens the breaker, and a probe makes it
half-open. -/
def overlap : List Act := [.execute, .execute, .report 0 (.failure "timeout"), .execute]

theorem overlap_runs : (exec World.act (World.init touchy 0) overlap).isSome := by decide

/-- The probe that closes a breaker after one failure: its law holds with a success of its own period. -/
theorem probeLaw_of_timely_probe : ∃ t w w', w.breaker.state = .halfOpen ∧ w'.breaker.state = .closed ∧
    ProbeLaw t w [.reported ⟨some 1⟩ .success] w' := by
  have h₁ : Run (Restrict ExecuteStep Timely) (World.init touchy 0) _ _ :=
    .single ⟨⟨.W_Admit rfl rfl rfl, by simp⟩, by intro c o h; simp at h⟩
  have h₂ := h₁.snoc ⟨⟨.W_Report [] [] (o := .failure "timeout") rfl, by simp⟩,
    by intro c o _ hs; cases hs⟩
  have h₃ := h₂.snoc ⟨⟨.W_Admit rfl rfl rfl, by simp⟩, by intro c o h; simp at h⟩
  refine ⟨_, _, _, ?_, ?_, probeLaw_of_timely touchy 0 _ _ _ _ h₃
    ⟨⟨.W_Report [] [] (o := .success) rfl, by simp⟩, ?_⟩⟩
  · decide
  · decide
  · intro c o h _ _
    simp only [List.cons.injEq, Event.reported.injEq, and_true] at h
    rw [← h.1]
    decide

/-- The other early call now reports its success. It closes the breaker, and no probe of the period has
reported yet. -/
theorem late_success_closes : ¬ ∀ (cfg : Config) (now : Time) (t : List Event) (w : World)
    (evs : List Event) (w' : World), Run ExecuteStep (World.init cfg now) t w → ExecuteStep w evs w' →
    ProbeLaw t w evs w' := by
  intro h
  have hr := (run_after act_sound overlap_runs).restrict_events (p := (· ≠ .reset)) (by decide)
  have hs : Step (after World.act (World.init touchy 0) overlap).2 [.reported ⟨none⟩ .success] _ :=
    .W_Report [] [⟨some 1⟩] rfl
  have hlaw := (h touchy 0 _ _ _ _ hr ⟨hs, by simp⟩).closing (by decide) (by decide)
  revert hlaw
  decide

/-! ## Calls in any order -/

/-- However the methods are called, the counters keep within their bounds in each state. -/
theorem counters_bounded (cfg : Config) (hF : 0 < cfg.failureThreshold) (hS : 0 < cfg.successThreshold) (start : Time)
    (t : List Called) (c : Clocked) (hr : Run MethodStep (.init cfg start) t c) : Bounded cfg c.breaker :=
  Bounded.run hF hS hr

/-- Five late reports trip a breaker with the default configuration, and a probe makes it half-open. -/
theorem counters_bounded_probe : ∃ (t : List Called) (c : Clocked),
    Run MethodStep (.init defaultConfig 0) t c ∧ c.breaker.state = .halfOpen ∧ Bounded defaultConfig c.breaker := by
  have h₁ : Run MethodStep (.init defaultConfig 0) _ _ := .single (.B_Call (.recordFailure "timeout") rfl)
  have h₂ := h₁.snoc (.B_Call (.recordFailure "timeout") rfl)
  have h₃ := h₂.snoc (.B_Call (.recordFailure "timeout") rfl)
  have h₄ := h₃.snoc (.B_Call (.recordFailure "timeout") rfl)
  have h₅ := h₄.snoc (.B_Call (.recordFailure "timeout") rfl)
  have h₆ := h₅.snoc (.B_Advance (30 * 10 ^ 9))
  have h₇ := h₆.snoc (.B_Call .allow rfl)
  exact ⟨_, _, h₇, by decide, counters_bounded defaultConfig (by decide) (by decide) 0 _ _ h₇⟩

/-- A step trips a closed breaker exactly when it is the counting failure that completes a streak of
`FailureThreshold`; a failure with another bucket changes neither the breaker nor the streak. -/
theorem trips_iff_streak (cfg : Config) (hF : 0 < cfg.failureThreshold) (start : Time) (t : List Called) (c : Clocked)
    (hr : Run MethodStep (.init cfg start) t c) (evs : List Called) (c' : Clocked) (hs : MethodStep c evs c') :
    ((c.breaker.state = .closed ∧ c'.breaker.state = .opened) ↔
      ∃ x bucket, evs = [x] ∧ x.method = .recordFailure bucket ∧ (bucket ≠ "" ∧ bucket ∉ cfg.nonRetryableErrors) ∧
        c.breaker.state = .closed ∧ streak cfg t + 1 = cfg.failureThreshold.toNat) ∧
    ∀ x bucket, evs = [x] → x.method = .recordFailure bucket → ¬ (bucket ≠ "" ∧ bucket ∉ cfg.nonRetryableErrors) →
      c'.breaker = c.breaker ∧ streak cfg (t ++ evs) = streak cfg t := by
  have h := Streak.run hF hr
  cases hs with
  | B_Advance d =>
      refine ⟨⟨?_, ?_⟩, ?_⟩
      · rintro ⟨hs, hs'⟩
        cases hs.symm.trans hs'
      · rintro ⟨x, bucket, hevs, _⟩
        cases hevs
      · intro x bucket hevs
        cases hevs
  | B_Call m hcall =>
      have hch := call_change hcall
      constructor
      · rw [hch.trips_iff]
        constructor
        · rintro ⟨bucket, rfl, hcount, hs, hle⟩
          rw [h.config] at hcount hle
          exact ⟨_, bucket, rfl, rfl, (counting_iff bucket).mp hcount, hs, (h.reached_iff hs).mp hle⟩
        · rintro ⟨x, bucket, hevs, hm, hcount, hs, heq⟩
          cases hevs
          refine ⟨bucket, hm, ?_, hs, ?_⟩
          · rw [h.config]
            exact (counting_iff bucket).mpr hcount
          · rw [h.config]
            exact (h.reached_iff hs).mpr heq
      · intro x bucket hevs hm hcount
        cases hevs
        cases hm
        have hno : c.breaker.config.counting bucket = false := by
          rw [h.config, ← Bool.not_eq_true, counting_iff]
          exact hcount
        cases hcall
        have hstay : c.breaker.recordFailure c.now bucket = c.breaker := recordFailure_not_counting hno
        refine ⟨hstay, ?_⟩
        rw [hstay, streak_snoc (by simp [Called.closes]), counts_failure, ← h.config, hno]
        rfl

/-- The second failure of two, with a failure that does not count between them. -/
theorem trips_iff_streak_second : ∃ (cfg : Config) (t : List Called) (c c' : Clocked) (x : Called),
    Run MethodStep (.init cfg 0) t c ∧ MethodStep c [x] c' ∧ streak cfg t = 1 ∧ c'.breaker.state = .opened := by
  have h₁ : Run MethodStep (.init { defaultConfig with failureThreshold := 2 } 0) _ _ :=
    .single (.B_Call (.recordFailure "timeout") rfl)
  have h₂ := h₁.snoc (.B_Call (.recordFailure "not_found") rfl)
  have htrip := (trips_iff_streak _ (by decide) 0 _ _ h₂ _ _ (.B_Call (.recordFailure "timeout") rfl)).1.mpr
    ⟨_, "timeout", rfl, rfl, by decide, by decide, by decide⟩
  exact ⟨_, _, _, _, _, h₂, .B_Call (.recordFailure "timeout") rfl, by decide, htrip.2⟩

/-- In an open period that `k` failed half-open periods led to, the timeout is the `k`-th power of the multiplier
times `OpenTimeout`, up to its cap, and no `Allow` succeeds before it is over. -/
theorem open_period_backoff (cfg : Config) (m : Nat) (hm : 1 ≤ m) (hmul : cfg.backoffMultiplier = .ofNat m)
    (hpos : 0 < cfg.openTimeout) (hle : cfg.openTimeout ≤ cfg.maxOpenTimeout)
    (hexact : cfg.maxOpenTimeout.toInt * m < 2 ^ 63) (start : Time) (t : List Called) (c : Clocked)
    (hr : Run MethodStep (.init cfg start) t c) (hopen : c.breaker.state = .opened)
    (hk : failedPeriods t < 2 ^ 32) :
    c.breaker.currentOpenTimeout.toInt =
        min (cfg.openTimeout.toInt * m ^ failedPeriods t) cfg.maxOpenTimeout.toInt ∧
      c.breaker.consecutiveOpens.toNat = failedPeriods t ∧
      ∀ b, c.breaker.allow c.now = (b, none) →
        min (cfg.openTimeout.toInt * m ^ failedPeriods t) cfg.maxOpenTimeout.toInt ≤ c.now - periodStart start t := by
  have hcap : Capped cfg m := ⟨hmul, hm, hpos, hle, hexact⟩
  have h := Backoff.run hcap hr
  refine ⟨h.timeout, ?_, fun b hallow => ?_⟩
  · rw [h.opens, Nat.mod_eq_of_lt hk]
  · rcases allow_admitted hallow with ⟨hs, _⟩ | ⟨_, helapsed, _⟩ | ⟨hs, _⟩
    · exact nomatch hopen.symm.trans hs
    · rw [← h.timeout, ← h.since]
      exact elapsed_of_allow (h.timeout_pos hcap) helapsed
    · exact nomatch hopen.symm.trans hs

/-- The second open period of a breaker that one failure trips. -/
theorem open_period_backoff_second : ∃ (t : List Called) (c : Clocked),
    Run MethodStep (.init { defaultConfig with failureThreshold := 1 } 0) t c ∧ c.breaker.state = .opened ∧
      failedPeriods t = 1 ∧ c.breaker.currentOpenTimeout.toInt = 60 * 10 ^ 9 := by
  have h₁ : Run MethodStep (.init { defaultConfig with failureThreshold := 1 } 0) _ _ :=
    .single (.B_Call (.recordFailure "timeout") rfl)
  have h₂ := h₁.snoc (.B_Advance (30 * 10 ^ 9))
  have h₃ := h₂.snoc (.B_Call .allow rfl)
  have h₄ := h₃.snoc (.B_Call (.recordFailure "timeout") rfl)
  have hlaw := open_period_backoff _ 2 (by decide) rfl (by decide) (by decide) (by decide) 0 _ _ h₄ (by decide)
    (by decide)
  refine ⟨_, _, h₄, by decide, by decide, ?_⟩
  rw [hlaw.1]
  decide

/-! ## Slots -/

/-- `Allow` in a half-open period lets a call through while there are fewer probes in flight than the cap, unless the
period has admitted as many probes as the cap and one of them has reported. -/
theorem halfOpen_admits_iff (cfg : Config) (now : Time) (t : List Event) (w : World)
    (hr : Run Step (World.init cfg now) t w) (hs : w.breaker.state = .halfOpen) :
    ((w.breaker.allow w.now).2 = none ↔ probesInFlight w w.period < cfg.halfOpenMaxRequests.toNat) ↔
      (cfg.halfOpenMaxRequests.toNat = 0 ∨ probesAdmitted t w.period < cfg.halfOpenMaxRequests.toNat ∨
        probesReported t w.period = 0) := by
  have h := Slots.run hr
  have hbalance := h.balance w.period
  have hrequests := h.requests hs
  have hbound := h.bound hs
  rw [h.allow_iff hs]
  omega

/-- The first probe of a period that admits one at a time. -/
theorem halfOpen_admits_iff_probe : ∃ t w, Run Step (World.init touchy 0) t w ∧ w.breaker.state = .halfOpen ∧
    ((w.breaker.allow w.now).2 = none ↔ probesInFlight w w.period < touchy.halfOpenMaxRequests.toNat) := by
  have hr := run_after act_sound overlap_runs
  have hs : (after World.act (World.init touchy 0) overlap).2.breaker.state = .halfOpen := by decide
  exact ⟨_, _, hr, hs, (halfOpen_admits_iff touchy 0 _ _ hr hs).mpr (by decide)⟩

/-- After the probe of the default configuration has succeeded, no probe is in flight and `Allow` admits none. -/
theorem halfOpen_leaks_slot : ∃ t w, Run Step (World.init defaultConfig 0) t w ∧ w.breaker.state = .halfOpen ∧
    probesInFlight w w.period < defaultConfig.halfOpenMaxRequests.toNat ∧
    (w.breaker.allow w.now).2 = some .circuitOpen :=
  ⟨_, _, run_after act_sound wedge_runs, by decide, by decide, by decide⟩

/-! ## Resets -/

/-- `Reset` makes the breaker as good as new, and so it takes fewer failures than the threshold, but for a closed
breaker that has failures. -/
theorem reset_renews_iff (cfg : Config) (start : Time) (t : List Called) (c : Clocked)
    (hr : Run MethodStep (.init cfg start) t c) :
    ((c.breaker.reset c.now).counters = (Breaker.new cfg c.now).counters ∧
      ∀ (t' : List Called) (c' : Clocked), Run MethodStep ⟨c.breaker.reset c.now, c.now⟩ t' c' →
        t'.countP (Called.counts cfg) < cfg.failureThreshold.toNat → c'.breaker.state = .closed) ↔
      ¬ (c.breaker.state = .closed ∧ 0 < c.breaker.failures) := by
  have h := Rested.run hr
  rw [h.counters_reset_iff]
  refine ⟨fun hfresh => hfresh.1, fun hfresh => ⟨hfresh, fun t' c' hr' hlt => ?_⟩⟩
  have hcounters : (c.breaker.reset c.now).counters = _ := h.counters_reset_iff.mpr hfresh
  simp only [Breaker.counters, Prod.mk.injEq] at hcounters
  have hconfig : (c.breaker.reset c.now).config = cfg := (change_reset _ _).config_eq.trans h.config
  exact ((Budget.run hconfig ⟨hcounters.1, hcounters.2.1⟩ hr').closed hlt).1

/-- A breaker that two failures trip. -/
def patient : Config := { defaultConfig with failureThreshold := 2 }

theorem reset_renews_iff_opened : ∃ (t : List Called) (c : Clocked), Run MethodStep (.init patient 0) t c ∧
    c.breaker.state = .opened ∧ (c.breaker.reset c.now).counters = (Breaker.new patient c.now).counters := by
  have h₁ : Run MethodStep (.init patient 0) _ _ := .single (.B_Call (.recordFailure "timeout") rfl)
  have h₂ := h₁.snoc (.B_Call (.recordFailure "timeout") rfl)
  exact ⟨_, _, h₂, by decide, ((reset_renews_iff patient 0 _ _ h₂).mpr (by decide)).1⟩

/-- One failure before the `Reset` and one after it trip the breaker. -/
theorem reset_keeps_failures : ∃ (t t' : List Called) (c c' : Clocked), Run MethodStep (.init patient 0) t c ∧
    Run MethodStep ⟨c.breaker.reset c.now, c.now⟩ t' c' ∧ (c.breaker.reset c.now).failures = 1 ∧
    t'.countP (Called.counts patient) = 1 ∧ c'.breaker.state = .opened := by
  have h₁ : Run MethodStep (.init patient 0) _ _ := .single (.B_Call (.recordFailure "timeout") rfl)
  exact ⟨_, _, _, _, h₁, .single (.B_Call (.recordFailure "timeout") rfl), by decide, by decide,
    by decide⟩

end Gopkg.Circuitbreaker
