import Gopkg.Circuitbreaker.Breaker

/-!
# What each method of the breaker does
-/

namespace Gopkg.Circuitbreaker

variable {b b' : Breaker} {now : Time}

/-! ## `uint32` -/

theorem toNat_succ_of_lt {a b : UInt32} (h : a < b) : (a + 1).toNat = a.toNat + 1 := by
  have hb := b.toNat_lt
  rw [UInt32.lt_iff_toNat_lt] at h
  rw [UInt32.toNat_add, UInt32.toNat_one]
  exact Nat.mod_eq_of_lt (by omega)

theorem toNat_succ_le (a : UInt32) : (a + 1).toNat ≤ a.toNat + 1 := by
  rw [UInt32.toNat_add, UInt32.toNat_one]
  exact Nat.mod_le _ _

/-! ## `transitionTo` -/

@[simp] theorem transitionTo_config (b : Breaker) (now : Time) (next : State) :
    (b.transitionTo now next).config = b.config := by
  unfold Breaker.transitionTo
  split
  · rfl
  · cases next <;> rfl

@[simp] theorem transitionTo_state (b : Breaker) (now : Time) (next : State) :
    (b.transitionTo now next).state = next := by
  unfold Breaker.transitionTo
  split
  · assumption
  · cases next <;> rfl

/-! ## `Allow` -/

/-- An admitted call leaves a closed breaker alone, opens a half-open period, or takes one of its slots. -/
theorem allow_admitted (h : b.allow now = (b', none)) :
    (b.state = .closed ∧ b' = b) ∨
    (b.state = .opened ∧ b.currentOpenTimeout ≤ timeSince now b.lastStateChange ∧
      b' = { b with state := .halfOpen, lastStateChange := now, successes := 0, halfOpenRequests := 1 }) ∨
    (b.state = .halfOpen ∧ b.halfOpenRequests < b.config.halfOpenMaxRequests ∧
      b' = { b with halfOpenRequests := b.halfOpenRequests + 1 }) := by
  unfold Breaker.allow at h
  split at h
  · rename_i hs
    simp only [Prod.mk.injEq, and_true] at h
    exact Or.inl ⟨hs, h.symm⟩
  · rename_i hs
    split at h
    · rename_i ht
      simp only [Breaker.transitionTo, hs, reduceCtorEq, ↓reduceIte, Prod.mk.injEq, and_true] at h
      exact Or.inr (Or.inl ⟨hs, ht, h.symm⟩)
    · simp at h
  · rename_i hs
    split at h
    · rename_i hr
      simp only [Prod.mk.injEq, and_true] at h
      exact Or.inr (Or.inr ⟨hs, hr, h.symm⟩)
    · simp at h

theorem allow_rejected {e : BreakerError} (h : b.allow now = (b', some e)) :
    b' = b ∧
      ((b.state = .opened ∧ ¬ b.currentOpenTimeout ≤ timeSince now b.lastStateChange) ∨
        (b.state = .halfOpen ∧ ¬ b.halfOpenRequests < b.config.halfOpenMaxRequests)) := by
  unfold Breaker.allow at h
  split at h
  · simp at h
  · rename_i hs
    split at h
    · simp at h
    · rename_i ht
      simp only [Prod.mk.injEq] at h
      exact ⟨h.1.symm, Or.inl ⟨hs, ht⟩⟩
  · rename_i hs
    split at h
    · simp at h
    · rename_i hr
      simp only [Prod.mk.injEq] at h
      exact ⟨h.1.symm, Or.inr ⟨hs, hr⟩⟩

/-! ## `RecordSuccess`, `RecordFailure` and `Reset` -/

def Breaker.reclosed (b : Breaker) (now : Time) : Breaker :=
  { b with
    state := .closed, lastStateChange := now, failures := 0, successes := 0, halfOpenRequests := 0
    consecutiveOpens := 0, currentOpenTimeout := b.config.openTimeout }

theorem recordSuccess_closed (h : b.state = .closed) : b.recordSuccess now = { b with failures := 0 } := by
  simp [Breaker.recordSuccess, h]

theorem recordSuccess_opened (h : b.state = .opened) :
    b.recordSuccess now = { b with successes := b.successes + 1 } := by
  simp [Breaker.recordSuccess, h]

theorem recordSuccess_halfOpen (h : b.state = .halfOpen) :
    b.recordSuccess now =
      if b.config.successThreshold ≤ b.successes + 1 then b.reclosed now
      else { b with successes := b.successes + 1 } := by
  simp only [Breaker.recordSuccess, h, Breaker.transitionTo, Breaker.reclosed, reduceCtorEq, ↓reduceIte]

theorem recordFailure_not_counting {bucket : String} (h : b.config.counting bucket = false) :
    b.recordFailure now bucket = b := by
  simp [Breaker.recordFailure, h]

theorem recordFailure_state {bucket : String} (h : b.config.counting bucket = true)
    (hs : b.state = .halfOpen) : (b.recordFailure now bucket).state = .opened := by
  simp [Breaker.recordFailure, h, hs]

theorem reset_closed (h : b.state = .closed) : b.reset now = b := by
  simp [Breaker.reset, Breaker.transitionTo, h]

theorem reset_not_closed (h : b.state ≠ .closed) : b.reset now = b.reclosed now := by
  simp only [Breaker.reset, Breaker.transitionTo, h, ↓reduceIte]
  rfl

end Gopkg.Circuitbreaker
