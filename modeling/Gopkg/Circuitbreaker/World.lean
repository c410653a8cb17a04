import Gopkg.Lts.Exec
import Gopkg.Circuitbreaker.Breaker

/-!
# Concurrent callers of one breaker

An `Execute` call takes two steps under the lock: its `Allow`, and, when it was admitted, its own
`RecordSuccess` or `RecordFailure` later. Between the two the call is in flight. The steps of several
calls, resets and clock advances interleave freely.
-/

namespace Gopkg.Circuitbreaker

/-- An `Execute` call in flight. `period` is the half-open period in which `Allow` admitted it: `none`
for a call admitted while the breaker was closed. The breaker itself keeps no such record. -/
structure Call where
  period : Option Nat
  deriving DecidableEq, Repr

structure World where
  breaker : Breaker
  now : Time
  -- The number of half-open periods so far.
  period : Nat
  calls : List Call

def World.init (cfg : Config) (now : Time) : World where
  breaker := Breaker.new cfg now
  now := now
  period := 0
  calls := []

inductive Event where
  | admitted (c : Call)
  | rejected (e : BreakerError)
  | reported (c : Call) (o : Outcome)
  | reset
  | advanced (d : Nat)
  deriving DecidableEq, Repr

/-- The half-open period after the breaker moved from the state `s` to the state `s'`. -/
def nextPeriod (n : Nat) (s s' : State) : Nat := if s = .opened ∧ s' = .halfOpen then n + 1 else n

def callPeriod (n : Nat) (s : State) : Option Nat := if s = .halfOpen then some n else none

inductive Step : World → List Event → World → Prop
  | W_Admit {w : World} {b : Breaker} {n : Nat} {c : Call} : w.breaker.allow w.now = (b, none) →
      n = nextPeriod w.period w.breaker.state b.state → c = ⟨callPeriod n b.state⟩ →
      Step w [.admitted c] { w with breaker := b, period := n, calls := w.calls ++ [c] }
  | W_Reject {w : World} {b : Breaker} {e : BreakerError} : w.breaker.allow w.now = (b, some e) →
      Step w [.rejected e] { w with breaker := b }
  | W_Report {w : World} (pre post : List Call) {c : Call} {o : Outcome} : w.calls = pre ++ c :: post →
      Step w [.reported c o] { w with breaker := w.breaker.record w.now o, calls := pre ++ post }
  | W_Reset {w : World} : Step w [.reset] { w with breaker := w.breaker.reset w.now }
  | W_Advance {w : World} (d : Nat) : Step w [.advanced d] { w with now := w.now + d }

/-- The choices that fix the next step: a new `Execute` call, the report of the `i`-th call in flight, a
reset, or a clock advance. -/
inductive Act where
  | execute
  | report (i : Nat) (o : Outcome)
  | reset
  | advance (d : Nat)
  deriving DecidableEq, Repr

def World.act (w : World) : Act → Option (List Event × World)
  | .execute =>
      match w.breaker.allow w.now with
      | (b, none) =>
          let n := nextPeriod w.period w.breaker.state b.state
          let c : Call := ⟨callPeriod n b.state⟩
          some ([.admitted c], { w with breaker := b, period := n, calls := w.calls ++ [c] })
      | (b, some e) => some ([.rejected e], { w with breaker := b })
  | .report i o =>
      match w.calls[i]? with
      | some c => some ([.reported c o],
          { w with breaker := w.breaker.record w.now o, calls := w.calls.take i ++ w.calls.drop (i + 1) })
      | none => none
  | .reset => some ([.reset], { w with breaker := w.breaker.reset w.now })
  | .advance d => some ([.advanced d], { w with now := w.now + d })

theorem act_sound (w : World) (a : Act) (evs : List Event) (w' : World) :
    w.act a = some (evs, w') → Step w evs w' := by
  intro h
  cases a with
  | execute =>
      simp only [World.act] at h
      split at h
      · rename_i b ha
        simp only [Option.some.injEq, Prod.mk.injEq] at h
        obtain ⟨rfl, rfl⟩ := h
        exact .W_Admit ha rfl rfl
      · rename_i b e ha
        simp only [Option.some.injEq, Prod.mk.injEq] at h
        obtain ⟨rfl, rfl⟩ := h
        exact .W_Reject ha
  | report i o =>
      simp only [World.act] at h
      split at h
      · rename_i c hc
        simp only [Option.some.injEq, Prod.mk.injEq] at h
        obtain ⟨rfl, rfl⟩ := h
        obtain ⟨hi, rfl⟩ := List.getElem?_eq_some_iff.mp hc
        exact .W_Report _ _ (by rw [← List.drop_eq_getElem_cons hi, List.take_append_drop])
      · cases h
  | reset =>
      simp only [World.act, Option.some.injEq, Prod.mk.injEq] at h
      obtain ⟨rfl, rfl⟩ := h
      exact .W_Reset
  | advance d =>
      simp only [World.act, Option.some.injEq, Prod.mk.injEq] at h
      obtain ⟨rfl, rfl⟩ := h
      exact .W_Advance d

/-- The events of a continuation made of clock advances and of `Execute` calls that succeed. -/
def Event.Healing : Event → Prop
  | .admitted _ => True
  | .rejected _ => True
  | .reported _ o => o = .success
  | .reset => False
  | .advanced _ => True

def HealingStep : World → List Event → World → Prop :=
  Lts.Restrict Step fun _ evs _ => ∀ ev ∈ evs, ev.Healing

/-- Some continuation of clock advances and successful `Execute` calls closes the breaker. -/
def CanClose (w : World) : Prop :=
  ∃ t w', Lts.Run HealingStep w t w' ∧ w'.breaker.state = .closed

end Gopkg.Circuitbreaker
