import Gopkg.Workerpool.Lemmas.Execution

/-!
# Theorems about the worker pool

What a call of `Submit` or `SubmitCtx` can end with, and what has been done when a call of `Wait` returns.
-/

namespace Gopkg.Workerpool

open Lts

/-! ## Submitting -/

/-- While the pool is not closed between the check and the send of a call, every call ends as documented, and a
task that is accepted is executed. -/
theorem submit_ends_documented (workers : Int) (t : List Event) (p : Pool)
    (hr : Run (Restrict Step Unhurried) (new workers) t p) (i : Nat) (c : SubmitCall)
    (hi : p.submits[i]? = some c) : c.Documented ∧ (c.pc = .ended .accepted → Once t p i) := by
  have ho : Orderly p :=
    hr.stateInvariant ⟨fun h => (nomatch h), nofun⟩ fun _ _ _ h hs => h.step hs.1 hs.2
  refine ⟨ho.documented c (List.mem_of_getElem? hi), fun hpc => ?_⟩
  have hcredit : p.credit i = 1 := by
    rw [credit_of_submits hi, SubmitCall.credit, SubmitCall.accepted, hpc]
    rfl
  exact (Books.run hr.of_restrict).once hcredit

/-- One call is served, and another one comes after `Wait`. -/
theorem submit_ends_documented_served : ∃ (t : List Event) (p : Pool),
    Run (Restrict Step Unhurried) (new 1) t p ∧
    p.submits = [⟨true, .ended .accepted⟩, ⟨false, .ended .closedPanic⟩] ∧
    (∀ (i : Nat) (c : SubmitCall), p.submits[i]? = some c →
      c.Documented ∧ (c.pc = .ended .accepted → Once t p i)) := by
  have h₁ : Run (Restrict Step Unhurried) (new 1) _ _ := .single ⟨.submit (.S_Call true), fun _ h => nomatch h⟩
  have h₂ := h₁.snoc ⟨.submit (.S_Checked (i := 0) rfl rfl), fun _ h => nomatch h⟩
  have h₃ := h₂.snoc ⟨.submit (.S_Send (i := 0) (k := 0) rfl rfl rfl), fun _ h => nomatch h⟩
  have h₄ := h₃.snoc ⟨.submit (.S_Call false), fun _ h => nomatch h⟩
  have h₅ := h₄.snoc ⟨.wait .Q_Call, fun _ h => nomatch h⟩
  have h₆ := h₅.snoc ⟨.wait (.Q_Close (j := 0) rfl rfl), fun _ _ => by decide⟩
  have h₇ := h₆.snoc ⟨.submit (.S_Closed (i := 1) rfl rfl rfl), fun _ h => nomatch h⟩
  exact ⟨_, _, h₇, rfl, fun i c hi => submit_ends_documented 1 _ _ h₇ i c hi⟩

/-- `SubmitCtx` finds the pool open; `Wait` closes it; the send panics. -/
theorem submitCtx_panics : ¬ ∀ (workers : Int) (t : List Event) (p : Pool), Run Step (new workers) t p →
    ∀ (i : Nat) (c : SubmitCall), p.submits[i]? = some c → c.Documented := by
  intro h
  have h₁ : Run Step (new 1) _ _ := .single (.submit (.S_Call true))
  have h₂ := h₁.snoc (.submit (.S_Checked (i := 0) rfl rfl))
  have h₃ := h₂.snoc (.wait .Q_Call)
  have h₄ := h₃.snoc (.wait (.Q_Close (j := 0) rfl rfl))
  have h₅ := h₄.snoc (.submit (.S_Panic (i := 0) rfl rfl))
  have hpanic := h 1 _ _ h₅ 0 ⟨true, .ended .sendPanic⟩ rfl .sendPanic rfl
  revert hpanic
  decide

/-! ## Waiting -/

/-- While `Wait` takes its shortcut only when the tasks accepted before it are in no worker's hand: an accepted task
is executed exactly once, no more tasks run than there are workers, and a call of `Wait` that has returned has
left no task behind. -/
theorem wait_means_done (workers : Int) (t : List Event) (p : Pool)
    (hr : Run (Restrict Step Settled) (new workers) t p) :
    (∀ i ∈ p.accepted, Once t p i) ∧
      (∀ i, finishes t i + p.running.count i = begins t i) ∧ p.running.length ≤ size workers ∧
      ∀ c ∈ p.waits, c.pc = .returned → ∀ i ∈ c.before, finishes t i = 1 := by
  have hb := Books.run hr.of_restrict
  have hw : Books (size workers) t p ∧ Waited t p := by
    refine hr.invariant (I := fun t p => Books (size workers) t p ∧ Waited t p) ⟨.new workers, nofun⟩
      fun _ _ _ _ h hs => ?_
    exact ⟨h.1.step hs.1, h.2.step h.1 hs.1 hs.2⟩
  refine ⟨fun i hi => hb.once (mem_accepted.mp hi), fun i => ?_, ?_, hw.2⟩
  · rw [count_running]
    exact hb.finished i
  · rw [← hb.length]
    exact List.length_filterMap_le _ _

/-- The task panics before `Wait` returns, and a later call of `Wait` returns at once. -/
theorem wait_means_done_twice : ∃ (t : List Event) (p : Pool),
    Run (Restrict Step Settled) (new 0) t p ∧ p.waits = [⟨[0], .returned⟩, ⟨[0], .returned⟩] ∧
    (∀ c ∈ p.waits, c.pc = .returned → ∀ i ∈ c.before, finishes t i = 1) := by
  have h₁ : Run (Restrict Step Settled) (new 0) _ _ := .single ⟨.submit (.S_Call false), fun _ _ h => nomatch h⟩
  have h₂ := h₁.snoc ⟨.submit (.S_Checked (i := 0) rfl rfl), fun _ _ h => nomatch h⟩
  have h₃ := h₂.snoc ⟨.submit (.S_Send (i := 0) (k := 0) rfl rfl rfl), fun _ _ h => nomatch h⟩
  have h₄ := h₃.snoc ⟨.worker (.W_Begin (k := 0) rfl), fun _ _ h => nomatch h⟩
  have h₅ := h₄.snoc ⟨.wait .Q_Call, fun _ _ h => nomatch h⟩
  have h₆ := h₅.snoc ⟨.wait (.Q_Close (j := 0) rfl rfl), fun _ _ h => nomatch h⟩
  have h₇ := h₆.snoc ⟨.worker (.W_Finish (k := 0) true rfl), fun _ _ h => nomatch h⟩
  have h₈ := h₇.snoc ⟨.worker (.W_Exit (k := 0) rfl rfl), fun _ _ h => nomatch h⟩
  have idle : ∀ w ∈ [WorkerPc.exited], ∀ i ∈ [0], ¬ w.holds i := by
    intro w hw i _
    rw [List.mem_singleton.mp hw]
    exact id
  have h₉ := h₈.snoc ⟨.wait (.Q_Return (j := 0) rfl rfl), fun j c he hj hc => by cases he; cases hj; exact nomatch hc⟩
  have h₁₀ := h₉.snoc ⟨.wait .Q_Call, fun _ _ h => nomatch h⟩
  have h₁₁ := h₁₀.snoc ⟨.wait (.Q_Skip (j := 1) rfl rfl), fun j c he hj _ => by cases he; cases hj; exact idle⟩
  exact ⟨_, _, h₁₁, rfl, (wait_means_done 0 _ _ h₁₁).2.2.2⟩

/-- The first call of `Wait` waits for the running task, and the second one returns before it is finished. -/
theorem wait_returns_early : ¬ ∀ (workers : Int) (t : List Event) (p : Pool), Run Step (new workers) t p →
    ∀ c ∈ p.waits, c.pc = .returned → ∀ i ∈ c.before, finishes t i = 1 := by
  intro h
  have h₁ : Run Step (new 1) _ _ := .single (.submit (.S_Call false))
  have h₂ := h₁.snoc (.submit (.S_Checked (i := 0) rfl rfl))
  have h₃ := h₂.snoc (.submit (.S_Send (i := 0) (k := 0) rfl rfl rfl))
  have h₄ := h₃.snoc (.worker (.W_Begin (k := 0) rfl))
  have h₅ := h₄.snoc (.wait .Q_Call)
  have h₆ := h₅.snoc (.wait (.Q_Close (j := 0) rfl rfl))
  have h₇ := h₆.snoc (.wait .Q_Call)
  have h₈ := h₇.snoc (.wait (.Q_Skip (j := 1) rfl rfl))
  have hdone := h 1 _ _ h₈ ⟨[0], .returned⟩ (by decide) rfl 0 (by decide)
  revert hdone
  decide

end Gopkg.Workerpool
