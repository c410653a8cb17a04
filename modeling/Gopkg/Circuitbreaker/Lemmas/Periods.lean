import Gopkg.Circuitbreaker.World
import Gopkg.Circuitbreaker.Lemmas.Breaker

/-!
# Half-open periods and the calls that decide them

`RecordSuccess` and `RecordFailure` look at the current state only. A call that was admitted before a
half-open period can report in it, and then it decides the period like a probe.
-/

namespace Gopkg.Circuitbreaker

open Lts

variable {w w' : World} {evs t : List Event}

/-- Steps of `Execute` calls and of the clock. -/
def ExecuteStep : World → List Event → World → Prop :=
  Restrict Step fun _ evs _ => ∀ ev ∈ evs, ev ≠ .reset

/-- A success report of a call that was admitted in the half-open period `p`. -/
def Event.isProbeSuccess (p : Nat) : Event → Bool
  | .reported c .success => c.period == some p
  | _ => false

def probeSuccesses (t : List Event) (p : Nat) : Nat := t.countP (Event.isProbeSuccess p)

/-- The step that shows `evs` after the events `t` leaves the half-open state only on account of the calls
that were admitted in this half-open period. -/
structure ProbeLaw (t : List Event) (w : World) (evs : List Event) (w' : World) : Prop where
  closing : w.breaker.state = .halfOpen → w'.breaker.state = .closed →
    w.breaker.config.successThreshold.toNat ≤ probeSuccesses (t ++ evs) w.period
  reopening : w.breaker.state = .halfOpen → w'.breaker.state = .opened →
    ∃ c bucket, evs = [.reported c (.failure bucket)] ∧ w.breaker.config.counting bucket = true ∧
      c.period = some w.period

/-- The outcome of a call that a half-open breaker reacts to. -/
def Outcome.deciding (cfg : Config) : Outcome → Bool
  | .success => true
  | .failure bucket => cfg.counting bucket

/-- A deciding report that arrives in a half-open period is from a call admitted in that period. -/
def Timely (w : World) (evs : List Event) (_ : World) : Prop :=
  ∀ c o, evs = [.reported c o] → w.breaker.state = .halfOpen → o.deciding w.breaker.config = true →
    c.period = some w.period

@[simp] theorem probeSuccesses_append (t t' : List Event) (p : Nat) :
    probeSuccesses (t ++ t') p = probeSuccesses t p + probeSuccesses t' p :=
  List.countP_append

theorem probeSuccesses_timely {c : Call} {p : Nat} (hc : c.period = some p) :
    probeSuccesses [.reported c .success] p = 1 := by
  simp [probeSuccesses, Event.isProbeSuccess, hc]

/-- The success counter of a half-open period counts successes of its own probes only. -/
def Counted (t : List Event) (w : World) : Prop :=
  w.breaker.state = .halfOpen → w.breaker.successes.toNat ≤ probeSuccesses t w.period

theorem Counted.mono {t' : List Event} (h : Counted t w) : Counted (t ++ t') w := by
  intro hs
  rw [probeSuccesses_append]
  exact Nat.le_add_right_of_le (h hs)

theorem Counted.admit {b : Breaker} {c : Call} {n : Nat} (h : Counted t w)
    (ha : w.breaker.allow w.now = (b, none)) (hn : n = nextPeriod w.period w.breaker.state b.state) :
    Counted (t ++ evs) { w with breaker := b, period := n, calls := w.calls ++ [c] } := by
  intro hs
  rcases allow_admitted ha with ⟨hc, rfl⟩ | ⟨_, _, rfl⟩ | ⟨hh, _, rfl⟩
  · rw [hc] at hs; cases hs
  · exact Nat.zero_le _
  · simp only [nextPeriod, hh, reduceCtorEq, false_and, ↓reduceIte] at hn
    subst hn
    exact h.mono hh

theorem Counted.report {c : Call} {o : Outcome} {calls : List Call} (h : Counted t w)
    (ht : Timely w [.reported c o] w') :
    Counted (t ++ [.reported c o]) { w with breaker := w.breaker.record w.now o, calls := calls } := by
  intro hs
  cases o with
  | success =>
      cases hb : w.breaker.state with
      | closed => simp [Breaker.record, recordSuccess_closed hb, hb] at hs
      | opened => simp [Breaker.record, recordSuccess_opened hb, hb] at hs
      | halfOpen =>
          have hp := ht c .success rfl hb rfl
          simp only [Breaker.record, recordSuccess_halfOpen hb] at hs ⊢
          split at hs
          · simp [Breaker.reclosed] at hs
          · rename_i hne
            rw [if_neg hne, probeSuccesses_append, probeSuccesses_timely hp]
            exact Nat.le_trans (toNat_succ_le _) (Nat.add_le_add_right (h hb) 1)
  | failure bucket =>
      cases hc : w.breaker.config.counting bucket with
      | false =>
          simp only [Breaker.record, recordFailure_not_counting hc] at hs ⊢
          exact h.mono hs
      | true =>
          -- A counting failure never leaves the breaker half-open.
          cases hb : w.breaker.state with
          | closed =>
              simp only [Breaker.record, Breaker.recordFailure, hc, ↓reduceIte, hb] at hs
              split at hs <;> simp at hs
          | opened => simp [Breaker.record, Breaker.recordFailure, hc, hb] at hs
          | halfOpen => simp [Breaker.record, recordFailure_state hc hb] at hs

theorem Counted.step (h : Counted t w) (hs : ExecuteStep w evs w') (ht : Timely w evs w') :
    Counted (t ++ evs) w' := by
  obtain ⟨hs, hr⟩ := hs
  cases hs with
  | W_Admit ha hn _ => exact h.admit ha hn
  | W_Reject ha => rw [(allow_rejected ha).1]; exact h.mono
  | W_Report _ _ _ => exact h.report ht
  | W_Reset => simp at hr
  | W_Advance d => exact h.mono

theorem ExecuteStep.leaves_halfOpen (h : ExecuteStep w evs w') (hs : w.breaker.state = .halfOpen)
    (hs' : w'.breaker.state ≠ .halfOpen) :
    ∃ c o, evs = [.reported c o] ∧ w'.breaker = w.breaker.record w.now o ∧
      o.deciding w.breaker.config = true := by
  obtain ⟨h, hr⟩ := h
  cases h with
  | W_Admit ha _ _ =>
      rcases allow_admitted ha with ⟨hc, _⟩ | ⟨hc, _⟩ | ⟨_, _, rfl⟩
      · rw [hs] at hc; cases hc
      · rw [hs] at hc; cases hc
      · exact absurd hs hs'
  | W_Reject ha => rw [(allow_rejected ha).1] at hs'; exact absurd hs hs'
  | @W_Report pre post c o _ =>
      refine ⟨c, o, rfl, rfl, ?_⟩
      cases o with
      | success => rfl
      | failure bucket =>
          cases hc : w.breaker.config.counting bucket with
          | true => simp [Outcome.deciding, hc]
          | false => simp [Breaker.record, recordFailure_not_counting hc, hs] at hs'
  | W_Reset => simp at hr
  | W_Advance d => exact absurd hs hs'

theorem Counted.probeLaw (h : Counted t w) (hs : ExecuteStep w evs w') (ht : Timely w evs w') :
    ProbeLaw t w evs w' := by
  constructor
  · intro hb hb'
    obtain ⟨c, o, rfl, hw, hd⟩ := hs.leaves_halfOpen hb (by simp [hb'])
    have hp := ht c o rfl hb hd
    cases o with
    | success =>
        rw [hw, Breaker.record, recordSuccess_halfOpen hb] at hb'
        split at hb'
        · rename_i hle
          rw [UInt32.le_iff_toNat_le] at hle
          rw [probeSuccesses_append, probeSuccesses_timely hp]
          exact Nat.le_trans hle (Nat.le_trans (toNat_succ_le _) (Nat.add_le_add_right (h hb) 1))
        · simp [hb] at hb'
    | failure bucket =>
        rw [hw, Breaker.record, recordFailure_state hd hb] at hb'
        cases hb'
  · intro hb hb'
    obtain ⟨c, o, rfl, hw, hd⟩ := hs.leaves_halfOpen hb (by simp [hb'])
    have hp := ht c o rfl hb hd
    cases o with
    | success =>
        rw [hw, Breaker.record, recordSuccess_halfOpen hb] at hb'
        split at hb'
        · simp [Breaker.reclosed] at hb'
        · simp [hb] at hb'
    | failure bucket => exact ⟨c, bucket, rfl, hd, hp⟩

end Gopkg.Circuitbreaker
