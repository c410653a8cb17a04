import Gopkg.Circuitbreaker.Lemmas.Methods

/-!
# When the breaker can close again

`Allow` counts the probes of a half-open period up to `HalfOpenMaxRequests` and only a state change resets
the count. So a period has a fixed number of probes to spend, and it can close the breaker only while the
probes left and the successes so far reach `SuccessThreshold`.
-/

namespace Gopkg.Circuitbreaker

open Lts

variable {cfg : Config} {w w' : World} {evs t : List Event}

/-! ## Counters -/

theorem succ_le_of_lt {a b : UInt32} (h : a < b) : a + 1 ≤ b := by
  rw [UInt32.le_iff_toNat_le, toNat_succ_of_lt h]
  exact UInt32.lt_iff_toNat_lt.mp h

/-- In a half-open period the successes are below the threshold, and the probes are within their bound. -/
structure Probing (cfg : Config) (b : Breaker) : Prop where
  config : b.config = cfg
  successes : b.state = .halfOpen → b.successes < cfg.successThreshold
  requests : b.state = .halfOpen → b.halfOpenRequests ≤ cfg.halfOpenMaxRequests

theorem Probing.of_not_halfOpen {b : Breaker} (hc : b.config = cfg) (hs : b.state ≠ .halfOpen) :
    Probing cfg b :=
  ⟨hc, fun h => absurd h hs, fun h => absurd h hs⟩

theorem Probing.change {b b' : Breaker} {now : Time} {m : Method} {e : Option BreakerError}
    (hS : 0 < cfg.successThreshold) (hH : 0 < cfg.halfOpenMaxRequests) (hb : Probing cfg b)
    (h : Change b now m e b') : Probing cfg b' := by
  have hc := hb.config
  cases h with
  | pass _ | reject | ignore _ | resetClosed _ => exact hb
  | probe _ _ => exact ⟨hc, fun _ => hS, fun _ => succ_le_of_lt hH⟩
  | slot hs hr =>
      rw [hc] at hr
      exact ⟨hc, fun _ => hb.successes hs, fun _ => succ_le_of_lt hr⟩
  | succeed hs hlt =>
      rw [hc] at hlt
      exact ⟨hc, fun _ => hlt, fun _ => hb.requests hs⟩
  | calm hs | lateSuccess hs | fail _ hs _ | lateFailure _ hs => exact .of_not_halfOpen hc (by simp [hs])
  | close _ | trip _ _ _ | reopen _ _ | reset _ => exact .of_not_halfOpen hc nofun

theorem Probing.run {now : Time} (hS : 0 < cfg.successThreshold) (hH : 0 < cfg.halfOpenMaxRequests)
    (h : Run Step (World.init cfg now) t w) : Probing cfg w.breaker := by
  obtain ⟨xs, hr⟩ := run_methods h
  refine hr.stateInvariant (I := fun c => Probing cfg c.breaker)
    (.of_not_halfOpen rfl (by simp [Clocked.init, Breaker.new])) fun c _ c' hc hs => ?_
  cases hs with
  | B_Call m hcall => exact hc.change hS hH (call_change hcall)
  | B_Advance d => exact hc

/-! ## The condition -/

/-- The probes that are left reach the success threshold. -/
def Breaker.Recoverable (b : Breaker) : Prop :=
  match b.state with
  | .closed => True
  | .opened => b.config.successThreshold ≤ b.config.halfOpenMaxRequests
  | .halfOpen =>
      b.config.successThreshold.toNat ≤
        b.successes.toNat + (b.config.halfOpenMaxRequests.toNat - b.halfOpenRequests.toNat)

instance (b : Breaker) : Decidable b.Recoverable :=
  match h : b.state with
  | .closed => .isTrue (by simp [Breaker.Recoverable, h])
  | .opened => decidable_of_iff (b.config.successThreshold ≤ b.config.halfOpenMaxRequests)
      (by simp [Breaker.Recoverable, h])
  | .halfOpen => decidable_of_iff (b.config.successThreshold.toNat ≤
        b.successes.toNat + (b.config.halfOpenMaxRequests.toNat - b.halfOpenRequests.toNat))
      (by simp [Breaker.Recoverable, h])

/-! ## A breaker out of probes stays half-open -/

/-- The calls in flight count as probes that may still succeed. -/
def Doomed (w : World) : Prop :=
  match w.breaker.state with
  | .closed => False
  | .opened => w.calls = [] ∧ w.breaker.config.halfOpenMaxRequests < w.breaker.config.successThreshold
  | .halfOpen =>
      w.breaker.successes.toNat + w.calls.length +
        (w.breaker.config.halfOpenMaxRequests.toNat - w.breaker.halfOpenRequests.toNat) <
        w.breaker.config.successThreshold.toNat

theorem doomed_of_not_recoverable (hq : w.calls = []) (h : ¬ w.breaker.Recoverable) : Doomed w := by
  unfold Breaker.Recoverable at h
  unfold Doomed
  cases hs : w.breaker.state with
  | closed => simp [hs] at h
  | opened =>
      simp only [hs, UInt32.not_le] at h
      exact ⟨hq, h⟩
  | halfOpen =>
      simp only [hs, Nat.not_le] at h
      simpa [hq] using h

theorem Doomed.admit {b : Breaker} {n : Nat} {c : Call} (hH : 0 < w.breaker.config.halfOpenMaxRequests)
    (hd : Doomed w) (h : w.breaker.allow w.now = (b, none)) :
    Doomed { w with breaker := b, period := n, calls := w.calls ++ [c] } := by
  unfold Doomed at hd ⊢
  rcases allow_admitted h with ⟨hs, rfl⟩ | ⟨hs, _, rfl⟩ | ⟨hs, hr, rfl⟩
  · simp [hs] at hd
  · simp only [hs] at hd
    obtain ⟨hq, hlt⟩ := hd
    rw [UInt32.lt_iff_toNat_lt] at hH hlt
    simp only [hq, List.nil_append, List.length_singleton, UInt32.toNat_zero, UInt32.toNat_one] at hH ⊢
    omega
  · simp only [hs] at hd ⊢
    rw [List.length_append, List.length_singleton, toNat_succ_of_lt hr]
    rw [UInt32.lt_iff_toNat_lt] at hr
    omega

theorem Doomed.success {pre post : List Call} {c : Call} (hd : Doomed w) (hc : w.calls = pre ++ c :: post) :
    Doomed { w with breaker := w.breaker.recordSuccess w.now, calls := pre ++ post } := by
  unfold Doomed at hd
  cases hs : w.breaker.state with
  | closed => simp [hs] at hd
  | opened => simp [hs, hc] at hd
  | halfOpen =>
      simp only [hs, hc, List.length_append, List.length_cons] at hd
      -- The success is one of the calls counted above, so it does not reach the threshold.
      have hlt : w.breaker.successes < w.breaker.config.successThreshold :=
        UInt32.lt_iff_toNat_lt.mpr (by omega)
      have hne : ¬ w.breaker.config.successThreshold ≤ w.breaker.successes + 1 := by
        rw [UInt32.le_iff_toNat_le, toNat_succ_of_lt hlt]
        omega
      unfold Doomed
      rw [recordSuccess_halfOpen hs, if_neg hne]
      simp only [hs, List.length_append, toNat_succ_of_lt hlt]
      omega

theorem Doomed.step (hH : 0 < w.breaker.config.halfOpenMaxRequests) (hd : Doomed w)
    (h : HealingStep w evs w') : Doomed w' := by
  obtain ⟨h, hev⟩ := h
  cases h with
  | W_Admit ha _ _ => exact hd.admit hH ha
  | W_Reject ha => rw [(allow_rejected ha).1]; exact hd
  | W_Report _ _ hc =>
      have ho := hev _ (List.mem_singleton_self _)
      simp only [Event.Healing] at ho
      subst ho
      exact hd.success hc
  | W_Reset => exact absurd (hev _ (List.mem_singleton_self _)) (by simp [Event.Healing])
  | W_Advance d => exact hd

theorem HealingStep.config (h : HealingStep w evs w') : w'.breaker.config = w.breaker.config := by
  obtain ⟨xs, hs⟩ := h.1.method
  exact hs.config_eq

theorem Doomed.not_canClose (hH : 0 < w.breaker.config.halfOpenMaxRequests) (hd : Doomed w) :
    ¬ CanClose w := by
  rintro ⟨t, w', hr, hc⟩
  have hinv : Doomed w' ∧ 0 < w'.breaker.config.halfOpenMaxRequests := by
    refine hr.stateInvariant (I := fun w => Doomed w ∧ 0 < w.breaker.config.halfOpenMaxRequests)
      ⟨hd, hH⟩ fun w evs w' hw hs => ⟨hw.1.step hw.2 hs, ?_⟩
    rw [hs.config]
    exact hw.2
  have hd' := hinv.1
  simp [Doomed, hc] at hd'

/-! ## A breaker with probes left closes -/

theorem CanClose.of_step (h : HealingStep w evs w') (hc : CanClose w') : CanClose w := by
  obtain ⟨t, w'', hr, hs⟩ := hc
  exact ⟨_, w'', hr.cons h, hs⟩

theorem CanClose.of_closed (h : w.breaker.state = .closed) : CanClose w := ⟨[], w, .refl, h⟩

theorem CanClose.of_probe {b : Breaker} {n : Nat} (hq : w.calls = [])
    (ha : w.breaker.allow w.now = (b, none)) (hn : n = nextPeriod w.period w.breaker.state b.state)
    (hc : CanClose { w with breaker := b.recordSuccess w.now, period := n, calls := [] }) : CanClose w := by
  refine .of_step ⟨.W_Admit ha hn rfl, by simp [Event.Healing]⟩ (.of_step ⟨.W_Report [] []
    (c := ⟨callPeriod n b.state⟩) (o := .success) (by simp [hq]), by simp [Event.Healing]⟩ ?_)
  exact hc

theorem canClose_halfOpen (n : Nat) : ∀ w : World, w.calls = [] → w.breaker.state = .halfOpen →
    w.breaker.successes < w.breaker.config.successThreshold →
    w.breaker.config.successThreshold.toNat = w.breaker.successes.toNat + n →
    w.breaker.halfOpenRequests.toNat + n ≤ w.breaker.config.halfOpenMaxRequests.toNat → CanClose w := by
  -- On the successes still missing: each probe brings one.
  induction n with
  | zero =>
      intro w _ _ hlt hn _
      rw [UInt32.lt_iff_toNat_lt] at hlt
      omega
  | succ n ih =>
      intro w hq hs hlt hn hslots
      have hr : w.breaker.halfOpenRequests < w.breaker.config.halfOpenMaxRequests :=
        UInt32.lt_iff_toNat_lt.mpr (by omega)
      have ha : w.breaker.allow w.now =
          ({ w.breaker with halfOpenRequests := w.breaker.halfOpenRequests + 1 }, none) := by
        simp [Breaker.allow, hs, hr]
      refine .of_probe hq ha rfl ?_
      rw [recordSuccess_halfOpen (b := { w.breaker with
        halfOpenRequests := w.breaker.halfOpenRequests + 1 }) hs]
      split
      · exact .of_closed rfl
      · rename_i hne
        have hne := UInt32.not_le.mp hne
        refine ih _ rfl hs hne ?_ ?_
        · simp only [toNat_succ_of_lt hlt]; omega
        · simp only [toNat_succ_of_lt hr]; omega

/-- A wait long enough for `time.Since` to reach its largest value outlasts every open timeout. -/
theorem exists_timeSince_ge (d : Int64) (now last : Time) : ∃ n : Nat, d ≤ timeSince (now + n) last := by
  refine ⟨(2 ^ 63 + last - now).toNat, ?_⟩
  have hge : (2 ^ 63 - 1 : Int) ≤ now + ((2 ^ 63 + last - now).toNat : Int) - last := by omega
  unfold timeSince
  rw [Int.min_eq_left hge, Int.max_eq_right (by decide)]
  exact Int64.le_maxValue d

theorem canClose_opened (hq : w.calls = []) (hs : w.breaker.state = .opened)
    (hS : 0 < w.breaker.config.successThreshold)
    (hle : w.breaker.config.successThreshold ≤ w.breaker.config.halfOpenMaxRequests) : CanClose w := by
  obtain ⟨d, hd⟩ := exists_timeSince_ge w.breaker.currentOpenTimeout w.now w.breaker.lastStateChange
  refine .of_step ⟨.W_Advance d, by simp [Event.Healing]⟩ ?_
  refine .of_probe hq (b := { w.breaker with
    state := .halfOpen, lastStateChange := w.now + d, successes := 0, halfOpenRequests := 1 }) ?_ rfl ?_
  · simp [Breaker.allow, hs, hd, Breaker.transitionTo]
  · rw [recordSuccess_halfOpen rfl]
    split
    · exact .of_closed rfl
    · rename_i hne
      have hne := UInt32.not_le.mp hne
      rw [UInt32.le_iff_toNat_le] at hle
      rw [UInt32.lt_iff_toNat_lt] at hS
      refine canClose_halfOpen (w.breaker.config.successThreshold.toNat - 1) _ rfl rfl hne ?_ ?_
      · simp only [UInt32.zero_add, UInt32.toNat_one]
        simp only [UInt32.toNat_zero] at hS
        omega
      · simp only [UInt32.toNat_one]
        simp only [UInt32.toNat_zero] at hS
        omega

theorem canClose_of_recoverable (hq : w.calls = []) (hS : 0 < w.breaker.config.successThreshold)
    (hp : Probing w.breaker.config w.breaker) (h : w.breaker.Recoverable) : CanClose w := by
  unfold Breaker.Recoverable at h
  cases hs : w.breaker.state with
  | closed => exact .of_closed hs
  | opened =>
      simp only [hs] at h
      exact canClose_opened hq hs hS h
  | halfOpen =>
      simp only [hs] at h
      have hlt := hp.successes hs
      have hr := hp.requests hs
      rw [UInt32.lt_iff_toNat_lt] at hlt
      rw [UInt32.le_iff_toNat_le] at hr
      exact canClose_halfOpen (w.breaker.config.successThreshold.toNat - w.breaker.successes.toNat) w hq hs
        (hp.successes hs) (by omega) (by omega)

end Gopkg.Circuitbreaker
