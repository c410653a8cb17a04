import Gopkg.Circuitbreaker.Lemmas.Methods

/-!
# The slots of a half-open period

`Allow` takes a slot for every probe that it admits, and no report gives one back.
-/

namespace Gopkg.Circuitbreaker

open Lts

variable {cfg : Config} {b b' : Breaker} {now : Time} {m : Method} {e : Option BreakerError} {w w' : World}
  {t evs : List Event} {p : Nat}

/-- The call was admitted in the half-open period `p`. -/
def Call.isProbe (p : Nat) (c : Call) : Bool := c.period == some p

def Event.isAdmission (p : Nat) : Event → Bool
  | .admitted c => c.isProbe p
  | _ => false

def Event.isReport (p : Nat) : Event → Bool
  | .reported c _ => c.isProbe p
  | _ => false

def probesAdmitted (t : List Event) (p : Nat) : Nat := t.countP (Event.isAdmission p)

def probesReported (t : List Event) (p : Nat) : Nat := t.countP (Event.isReport p)

/-- The probes of the period that have not reported. -/
def probesInFlight (w : World) (p : Nat) : Nat := w.calls.countP (Call.isProbe p)

/-- No report changes how many slots are taken. -/
theorem Change.requests (hch : Change b now m e b') (hm : m ≠ .allow) (hs : b'.state = .halfOpen) :
    b.state = .halfOpen ∧ b'.halfOpenRequests = b.halfOpenRequests := by
  cases hch with
  | pass _ | probe _ _ | slot _ _ | reject => exact absurd rfl hm
  | calm h | lateSuccess h | fail _ h _ | lateFailure _ h => exact nomatch h.symm.trans hs
  | close _ | trip _ _ _ | reopen _ _ | reset _ => exact nomatch hs
  | succeed h _ => exact ⟨h, rfl⟩
  | ignore _ => exact ⟨hs, rfl⟩
  | resetClosed _ => exact ⟨hs, rfl⟩

/-- Every probe of a period has reported or is in flight, and has a slot. -/
structure Slots (cfg : Config) (t : List Event) (w : World) : Prop where
  config : w.breaker.config = cfg
  balance : ∀ p, probesAdmitted t p = probesReported t p + probesInFlight w p
  later : ∀ p, w.period < p → probesAdmitted t p = 0
  requests : w.breaker.state = .halfOpen → w.breaker.halfOpenRequests.toNat = probesAdmitted t w.period
  bound : w.breaker.state = .halfOpen → w.breaker.halfOpenRequests.toNat ≤ max 1 cfg.halfOpenMaxRequests.toNat

theorem Slots.init (cfg : Config) (now : Time) : Slots cfg [] (World.init cfg now) where
  config := rfl
  balance _ := rfl
  later _ _ := rfl
  requests h := nomatch h
  bound h := nomatch h

theorem probesAdmitted_snoc (t : List Event) (ev : Event) (p : Nat) :
    probesAdmitted (t ++ [ev]) p = probesAdmitted t p + if ev.isAdmission p then 1 else 0 := by
  rw [probesAdmitted, List.countP_append, List.countP_singleton]
  rfl

theorem probesReported_snoc (t : List Event) (ev : Event) (p : Nat) :
    probesReported (t ++ [ev]) p = probesReported t p + if ev.isReport p then 1 else 0 := by
  rw [probesReported, List.countP_append, List.countP_singleton]
  rfl

/-- A step that admits no call takes no slot. -/
theorem Slots.keep {ev : Event} {calls : List Call} {now : Time} (h : Slots cfg t w) (hconfig : b.config = cfg)
    (hrequests : b.state = .halfOpen →
      w.breaker.state = .halfOpen ∧ b.halfOpenRequests = w.breaker.halfOpenRequests)
    (hadmission : ∀ p, ev.isAdmission p = false)
    (hcalls : ∀ p, (if ev.isReport p then 1 else 0) + calls.countP (Call.isProbe p) = probesInFlight w p) :
    Slots cfg (t ++ [ev]) { w with breaker := b, now := now, calls := calls } := by
  have hsame : ∀ p, probesAdmitted (t ++ [ev]) p = probesAdmitted t p := by
    intro p
    rw [probesAdmitted_snoc, hadmission p]
    rfl
  refine ⟨hconfig, fun p => ?_, fun p hp => ?_, fun hs => ?_, fun hs => ?_⟩
  · rw [hsame, h.balance p, probesReported_snoc, ← hcalls p, Nat.add_assoc]
    rfl
  · rw [hsame, h.later p hp]
  · rw [hsame, ← h.requests (hrequests hs).1]
    exact congrArg UInt32.toNat (hrequests hs).2
  · have hle := h.bound (hrequests hs).1
    rwa [← (hrequests hs).2] at hle

theorem le_nextPeriod {s s' : State} : p ≤ nextPeriod p s s' := by
  unfold nextPeriod
  split
  next => exact Nat.le_succ _
  next => exact Nat.le_refl _

/-- No call is a probe of a period to come. -/
theorem isProbe_later {n : Nat} {s : State} (hp : n < p) : Call.isProbe p ⟨callPeriod n s⟩ = false := by
  unfold Call.isProbe callPeriod
  split
  next => simp [Nat.ne_of_lt hp]
  next => rfl

/-- A call that is admitted goes into the books of its period. -/
theorem Slots.admit {c : Call} {n : Nat} (h : Slots cfg t w) (hch : Change w.breaker w.now .allow none b)
    (hn : n = nextPeriod w.period w.breaker.state b.state) (hc : c = ⟨callPeriod n b.state⟩) :
    Slots cfg (t ++ [.admitted c]) { w with breaker := b, period := n, calls := w.calls ++ [c] } := by
  have hadmitted : ∀ p, probesAdmitted (t ++ [.admitted c]) p = probesAdmitted t p + if c.isProbe p then 1 else 0 :=
    probesAdmitted_snoc t (.admitted c)
  have hbalance : ∀ p, probesAdmitted (t ++ [.admitted c]) p = probesReported (t ++ [.admitted c]) p +
      (w.calls ++ [c]).countP (Call.isProbe p) := by
    intro p
    rw [hadmitted, h.balance p, probesReported_snoc, List.countP_append, List.countP_singleton]
    exact Nat.add_assoc _ _ _
  have hlater : ∀ p, n < p → probesAdmitted (t ++ [.admitted c]) p = 0 := by
    intro p hp
    have hperiod : w.period ≤ n := hn ▸ le_nextPeriod
    rw [hadmitted, h.later p (Nat.lt_of_le_of_lt hperiod hp), hc, isProbe_later hp]
    rfl
  cases hch with
  | pass hs =>
      have hne : w.breaker.state ≠ .halfOpen := fun hs' => nomatch hs.symm.trans hs'
      exact ⟨h.config, hbalance, hlater, fun hs' => absurd hs' hne, fun hs' => absurd hs' hne⟩
  | probe hs _ =>
      have hn : n = w.period + 1 := by rw [hn, nextPeriod, if_pos ⟨hs, rfl⟩]
      refine ⟨h.config, hbalance, hlater, fun _ => ?_, fun _ => Nat.le_max_left _ _⟩
      rw [hadmitted, h.later n (hn ▸ Nat.lt_succ_self _), hc]
      simp [Call.isProbe, callPeriod]
  | slot hs hlt =>
      have hn : n = w.period := by
        rw [hn, nextPeriod, if_neg]
        rintro ⟨hs', _⟩
        cases hs.symm.trans hs'
      have hsucc := toNat_succ_of_lt hlt
      refine ⟨h.config, hbalance, hlater, fun _ => ?_, fun _ => ?_⟩
      · rw [hadmitted, hn, ← h.requests hs, hc]
        simp [Call.isProbe, callPeriod, hs, hn, hsucc]
      · rw [UInt32.lt_iff_toNat_lt, h.config] at hlt
        dsimp only
        omega

theorem Slots.step (h : Slots cfg t w) (hs : Step w evs w') : Slots cfg (t ++ evs) w' := by
  cases hs with
  | W_Admit ha hn hc => exact h.admit (call_change ha) hn hc
  | W_Reject ha =>
      rw [(allow_rejected ha).1]
      exact h.keep h.config (fun hs => ⟨hs, rfl⟩) (fun _ => rfl) fun _ => Nat.zero_add _
  | @W_Report pre post c o hcalls =>
      have hch : ∃ m, m ≠ .allow ∧ Change w.breaker w.now m none (w.breaker.record w.now o) := by
        cases o with
        | success => exact ⟨.recordSuccess, nofun, change_recordSuccess _ _⟩
        | failure bucket => exact ⟨.recordFailure bucket, nofun, change_recordFailure _ _ bucket⟩
      obtain ⟨m, hm, hch⟩ := hch
      refine h.keep (hch.config_eq.trans h.config) (hch.requests hm) (fun _ => rfl) fun p => ?_
      rw [probesInFlight, hcalls, List.countP_append, List.countP_append, List.countP_cons]
      change (if c.isProbe p then 1 else 0) + _ = _
      omega
  | W_Reset =>
      have hch := change_reset w.breaker w.now
      exact h.keep (hch.config_eq.trans h.config) (hch.requests nofun) (fun _ => rfl) fun _ => Nat.zero_add _
  | W_Advance d => exact h.keep h.config (fun hs => ⟨hs, rfl⟩) (fun _ => rfl) fun _ => Nat.zero_add _

theorem Slots.run (hr : Run Step (World.init cfg now) t w) : Slots cfg t w :=
  hr.invariant (Slots.init cfg now) fun _ _ _ _ h hs => h.step hs

/-- `Allow` in a half-open period counts the probes that it has admitted. -/
theorem Slots.allow_iff (h : Slots cfg t w) (hs : w.breaker.state = .halfOpen) :
    (w.breaker.allow w.now).2 = none ↔ probesAdmitted t w.period < cfg.halfOpenMaxRequests.toNat := by
  rw [← h.requests hs, ← h.config, ← UInt32.lt_iff_toNat_lt]
  simp only [Breaker.allow, hs]
  split
  · simp [*]
  · simp [*]

end Gopkg.Circuitbreaker
