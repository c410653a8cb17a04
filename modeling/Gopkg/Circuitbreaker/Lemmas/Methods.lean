import Gopkg.Circuitbreaker.Methods
import Gopkg.Circuitbreaker.World
import Gopkg.Circuitbreaker.Lemmas.Breaker

/-!
# What a call can do

Every call of a method is one of the changes listed here, and the invariants of the runs are read off the list.
-/

namespace Gopkg.Circuitbreaker

open Lts

variable {b b' : Breaker} {now : Time} {m : Method} {e : Option BreakerError}

/-! ## Changes -/

/-- The breaker after it has been opened from the closed state. -/
def Breaker.tripped (b : Breaker) (now : Time) : Breaker :=
  { b with
    state := .opened, lastStateChange := now, lastFailure := some now, failures := b.failures + 1, successes := 0
    halfOpenRequests := 0 }

/-- The breaker after a failed half-open period. -/
def Breaker.reopened (b : Breaker) (now : Time) : Breaker :=
  { b with
    state := .opened, lastStateChange := now, lastFailure := some now, successes := 0, halfOpenRequests := 0
    consecutiveOpens := b.consecutiveOpens + 1, currentOpenTimeout := b.backoff }

inductive Change (b : Breaker) (now : Time) : Method → Option BreakerError → Breaker → Prop
  | pass : b.state = .closed → Change b now .allow none b
  | probe : b.state = .opened → b.currentOpenTimeout ≤ timeSince now b.lastStateChange → Change b now .allow none
      { b with state := .halfOpen, lastStateChange := now, successes := 0, halfOpenRequests := 1 }
  | slot : b.state = .halfOpen → b.halfOpenRequests < b.config.halfOpenMaxRequests →
      Change b now .allow none { b with halfOpenRequests := b.halfOpenRequests + 1 }
  | reject {e : BreakerError} : Change b now .allow (some e) b
  | calm : b.state = .closed → Change b now .recordSuccess none { b with failures := 0 }
  | close : b.state = .halfOpen → Change b now .recordSuccess none (b.reclosed now)
  | succeed : b.state = .halfOpen → b.successes + 1 < b.config.successThreshold →
      Change b now .recordSuccess none { b with successes := b.successes + 1 }
  | lateSuccess : b.state = .opened → Change b now .recordSuccess none { b with successes := b.successes + 1 }
  | ignore {bucket : String} : b.config.counting bucket = false → Change b now (.recordFailure bucket) none b
  | fail {bucket : String} : b.config.counting bucket = true → b.state = .closed →
      b.failures + 1 < b.config.failureThreshold →
      Change b now (.recordFailure bucket) none { b with lastFailure := some now, failures := b.failures + 1 }
  | trip {bucket : String} : b.config.counting bucket = true → b.state = .closed →
      b.config.failureThreshold ≤ b.failures + 1 → Change b now (.recordFailure bucket) none (b.tripped now)
  | reopen {bucket : String} : b.config.counting bucket = true → b.state = .halfOpen →
      Change b now (.recordFailure bucket) none (b.reopened now)
  | lateFailure {bucket : String} : b.config.counting bucket = true → b.state = .opened →
      Change b now (.recordFailure bucket) none { b with lastFailure := some now, failures := b.failures + 1 }
  | resetClosed : b.state = .closed → Change b now .reset none b
  | reset : b.state ≠ .closed → Change b now .reset none (b.reclosed now)

theorem change_recordSuccess (b : Breaker) (now : Time) : Change b now .recordSuccess none (b.recordSuccess now) := by
  cases hs : b.state with
  | closed =>
      rw [recordSuccess_closed hs]
      exact .calm hs
  | opened =>
      rw [recordSuccess_opened hs]
      exact .lateSuccess hs
  | halfOpen =>
      rw [recordSuccess_halfOpen hs]
      split
      · exact .close hs
      · exact .succeed hs (UInt32.not_le.mp ‹_›)

theorem change_recordFailure (b : Breaker) (now : Time) (bucket : String) :
    Change b now (.recordFailure bucket) none (b.recordFailure now bucket) := by
  cases hc : b.config.counting bucket with
  | false =>
      rw [recordFailure_not_counting hc]
      exact .ignore hc
  | true =>
      cases hs : b.state with
      | closed =>
          simp only [Breaker.recordFailure, hc, ↓reduceIte, hs, Breaker.transitionTo, reduceCtorEq]
          split
          · exact .trip hc hs ‹_›
          · have h : Change b now _ none _ := .fail hc hs (UInt32.not_le.mp ‹_›)
            rwa [hs] at h
      | opened =>
          simp only [Breaker.recordFailure, hc, ↓reduceIte, hs]
          have h : Change b now _ none _ := .lateFailure hc hs
          rwa [hs] at h
      | halfOpen =>
          simp only [Breaker.recordFailure, hc, ↓reduceIte, hs, Breaker.transitionTo, reduceCtorEq]
          exact .reopen hc hs

theorem change_reset (b : Breaker) (now : Time) : Change b now .reset none (b.reset now) := by
  by_cases hs : b.state = .closed
  · rw [reset_closed hs]
    exact .resetClosed hs
  · rw [reset_not_closed hs]
    exact .reset hs

theorem call_change (h : b.call now m = (b', e)) : Change b now m e b' := by
  cases m with
  | allow =>
      cases e with
      | none =>
          rcases allow_admitted h with ⟨hs, rfl⟩ | ⟨hs, ht, rfl⟩ | ⟨hs, hr, rfl⟩
          · exact .pass hs
          · exact .probe hs ht
          · exact .slot hs hr
      | some e =>
          rw [(allow_rejected h).1]
          exact .reject
  | recordSuccess =>
      cases h
      exact change_recordSuccess b now
  | recordFailure bucket =>
      cases h
      exact change_recordFailure b now bucket
  | reset =>
      cases h
      exact change_reset b now

theorem Change.config_eq (h : Change b now m e b') : b'.config = b.config := by
  cases h <;> rfl

/-- What every change keeps, every run keeps. The clock alone does not matter. -/
theorem invariant_of_change {I : List Called → Breaker → Prop} {c c' : Clocked} {t : List Called}
    (hr : Run MethodStep c t c') (h₀ : I [] c.breaker)
    (hchange : ∀ t b now m e b', I t b → Change b now m e b' → I (t ++ [⟨m, now, e, b.state, b'.state⟩]) b') :
    I t c'.breaker := by
  refine hr.invariant (I := fun t c => I t c.breaker) h₀ fun t c evs c' h hs => ?_
  cases hs with
  | B_Call m hcall => exact hchange t _ _ m _ _ h (call_change hcall)
  | B_Advance d =>
      rw [List.append_nil]
      exact h

/-! ## `Execute` calls -/

theorem MethodStep.config_eq {c c' : Clocked} {xs : List Called} (h : MethodStep c xs c') :
    c'.breaker.config = c.breaker.config := by
  cases h with
  | B_Call m hcall => exact (call_change hcall).config_eq
  | B_Advance d => rfl

/-- A step of the callers of `Execute` is a call of a method, or an advance of the clock. -/
theorem Step.method {w w' : World} {evs : List Event} (h : Step w evs w') :
    ∃ xs, MethodStep ⟨w.breaker, w.now⟩ xs ⟨w'.breaker, w'.now⟩ := by
  cases h with
  | W_Admit ha _ _ => exact ⟨_, .B_Call .allow ha⟩
  | W_Reject ha => exact ⟨_, .B_Call .allow ha⟩
  | @W_Report pre post c o _ =>
      cases o with
      | success => exact ⟨_, .B_Call .recordSuccess rfl⟩
      | failure bucket => exact ⟨_, .B_Call (.recordFailure bucket) rfl⟩
  | W_Reset => exact ⟨_, .B_Call .reset rfl⟩
  | W_Advance d => exact ⟨_, .B_Advance d⟩

theorem run_methods {cfg : Config} {w : World} {t : List Event} (hr : Run Step (World.init cfg now) t w) :
    ∃ xs, Run MethodStep (.init cfg now) xs ⟨w.breaker, w.now⟩ := by
  induction hr with
  | refl => exact ⟨[], .refl⟩
  | snoc _ hs ih =>
      obtain ⟨xs, hr⟩ := ih
      obtain ⟨ys, hs⟩ := hs.method
      exact ⟨xs ++ ys, hr.snoc hs⟩

end Gopkg.Circuitbreaker
