import Gopkg.Workerpool.Lemmas.Books

/-!
# Tasks come to their end

The workers bring every task they have in hand to its end, whatever the others do; and what must not happen
for the calls of `Submit` and `Wait` to keep their word.
-/

namespace Gopkg.Workerpool

open Lts

variable {n : Nat} {t evs : List Event} {p p' : Pool} {i : Nat}

/-! ## Progress of the workers -/

/-- The steps that a worker needs until it has no task in hand. -/
def WorkerPc.left : WorkerPc → Nat
  | .received _ => 2
  | .running _ => 1
  | _ => 0

theorem worker_moves {k : Nat} {w : WorkerPc} (hk : p.workers[k]? = some w) (hw : 0 < w.left) :
    ∃ evs p', WorkerStep p evs p' ∧ total WorkerPc.left p'.workers + 1 = total WorkerPc.left p.workers := by
  cases w with
  | received i =>
      refine ⟨_, _, .W_Begin hk, ?_⟩
      have := total_set (f := WorkerPc.left) (b := .running i) hk
      simp only [WorkerPc.left] at this
      exact Nat.succ.inj this
  | running i =>
      refine ⟨_, _, .W_Finish false hk, ?_⟩
      exact total_set (f := WorkerPc.left) (b := .receiving) hk
  | receiving => exact absurd hw (Nat.lt_irrefl _)
  | exited => exact absurd hw (Nat.lt_irrefl _)

/-- The workers can finish all tasks they have in hand. -/
theorem workers_finish (m : Nat) : ∀ p : Pool, total WorkerPc.left p.workers = m →
    ∃ t' p', Run WorkerStep p t' p' ∧ total WorkerPc.left p'.workers = 0 := by
  induction m with
  | zero => exact fun p hp => ⟨[], p, .refl, hp⟩
  | succ m ih =>
      intro p hp
      have hpos : 0 < total WorkerPc.left p.workers := by
        rw [hp]
        exact Nat.succ_pos m
      obtain ⟨k, w, hk, hw⟩ := exists_of_total_pos hpos
      obtain ⟨evs, p₁, hs, hleft⟩ := worker_moves hk hw
      obtain ⟨t', p₂, hr, hend⟩ := ih p₁ (Nat.succ.inj (hleft.trans hp))
      exact ⟨_, _, hr.cons hs, hend⟩

theorem WorkerStep.submits_eq (hs : WorkerStep p evs p') : p'.submits = p.submits := by
  cases hs <;> rfl

/-- The task is executed exactly once: it has begun or one worker is about to begin it, it has finished if it is
not running, and the workers alone can bring it to its end. -/
structure Once (t : List Event) (p : Pool) (i : Nat) : Prop where
  begun : begins t i + total (WorkerPc.hasReceived i) p.workers = 1
  finished : finishes t i + total (WorkerPc.isRunning i) p.workers = begins t i
  ending : ∃ t' p', Run WorkerStep p t' p' ∧ begins (t ++ t') i = 1 ∧ finishes (t ++ t') i = 1

theorem Books.once (h : Books n t p) (hi : p.credit i = 1) : Once t p i := by
  obtain ⟨t', p', hr, hleft⟩ := workers_finish _ p rfl
  have h' : Books n (t ++ t') p' := hr.carry h fun _ _ _ _ h hs => h.step (.worker hs)
  have hcredit : p'.credit i = 1 := by
    have hsub : p'.submits = p.submits :=
      hr.stateInvariant (I := fun q => q.submits = p.submits) rfl fun _ _ _ heq hs => hs.submits_eq.trans heq
    rw [Pool.credit, hsub]
    exact hi
  have hreceived : total (WorkerPc.hasReceived i) p'.workers ≤ total WorkerPc.left p'.workers := by
    refine total_mono fun w _ => ?_
    cases w <;> simp only [WorkerPc.hasReceived, WorkerPc.left, Nat.le_refl, Nat.zero_le]
    split <;> omega
  have hrunning : total (WorkerPc.isRunning i) p'.workers ≤ total WorkerPc.left p'.workers := by
    refine total_mono fun w _ => ?_
    cases w <;> simp only [WorkerPc.isRunning, WorkerPc.left, Nat.le_refl, Nat.zero_le]
    split <;> omega
  have hb := h'.begun i
  have hf := h'.finished i
  exact ⟨hi ▸ h.begun i, h.finished i, t', p', hr, by omega, by omega⟩

/-! ## Running tasks -/

def WorkerPc.task? : WorkerPc → Option Nat
  | .running i => some i
  | _ => none

/-- The tasks that are running. -/
def Pool.running (p : Pool) : List Nat := p.workers.filterMap WorkerPc.task?

theorem count_running (p : Pool) (i : Nat) : p.running.count i = total (WorkerPc.isRunning i) p.workers := by
  unfold Pool.running
  induction p.workers with
  | nil => rfl
  | cons w ws ih =>
      cases w with
      | running j =>
          rw [List.filterMap_cons_some (f := WorkerPc.task?) (b := j) rfl, List.count_cons, ih, total_cons]
          simp only [WorkerPc.isRunning, beq_iff_eq]
          exact Nat.add_comm _ _
      | receiving | received _ | exited =>
          rw [List.filterMap_cons_none (f := WorkerPc.task?) rfl, ih, total_cons]
          exact (Nat.zero_add _).symm

/-! ## `Wait` -/

/-- The worker has the task in hand. -/
def WorkerPc.holds (i : Nat) : WorkerPc → Prop
  | .received j => j = i
  | .running j => j = i
  | _ => False

theorem holds_of_hasReceived {w : WorkerPc} (hw : 0 < w.hasReceived i) : w.holds i := by
  cases w <;> simp only [WorkerPc.hasReceived, Nat.lt_irrefl] at hw
  split at hw
  · assumption
  · exact absurd hw (Nat.lt_irrefl _)

theorem holds_of_isRunning {w : WorkerPc} (hw : 0 < w.isRunning i) : w.holds i := by
  cases w <;> simp only [WorkerPc.isRunning, Nat.lt_irrefl] at hw
  split at hw
  · assumption
  · exact absurd hw (Nat.lt_irrefl _)

/-- An accepted task that no worker has in hand is finished. -/
theorem Books.finishes_eq (h : Books n t p) (hi : p.credit i = 1) (hidle : ∀ w ∈ p.workers, ¬ w.holds i) :
    finishes t i = 1 := by
  have hzero : ∀ f : WorkerPc → Nat, (∀ w, 0 < f w → w.holds i) → total f p.workers = 0 := by
    intro f hf
    refine Nat.eq_zero_of_not_pos fun hpos => ?_
    obtain ⟨k, w, hk, hw⟩ := exists_of_total_pos hpos
    exact hidle w (List.mem_of_getElem? hk) (hf w hw)
  have hreceived := hzero (WorkerPc.hasReceived i) fun w => holds_of_hasReceived
  have hrunning := hzero (WorkerPc.isRunning i) fun w => holds_of_isRunning
  have := h.begun i
  have := h.finished i
  omega

/-- A call of `Wait` that finds the pool closed does so when no worker has a task in hand that was accepted before
the call. -/
def Settled (p : Pool) (evs : List Event) (_ : Pool) : Prop :=
  ∀ j c, evs = [.waitReturned j] → p.waits[j]? = some c → c.pc = .called →
    ∀ w ∈ p.workers, ∀ i ∈ c.before, ¬ w.holds i

def Waited (t : List Event) (p : Pool) : Prop :=
  ∀ c ∈ p.waits, c.pc = .returned → ∀ i ∈ c.before, finishes t i = 1

/-- A task that is finished stays so. -/
theorem Books.finishes_stays (h : Books n (t ++ evs) p) (hi : p.credit i = 1) (hf : finishes t i = 1) :
    finishes (t ++ evs) i = 1 := by
  have hb := h.begun i
  have hrun := h.finished i
  have happ := finishes_append t evs i
  omega

theorem Books.idle (h : Books n t p) (hwg : p.wg = 0) : ∀ w ∈ p.workers, ¬ w.holds i := by
  intro w hw hholds
  obtain ⟨k, hk⟩ := List.getElem?_of_mem hw
  have halive : w.alive ≤ 0 := by
    rw [← hwg, h.wg]
    exact le_total hk
  cases w with
  | received _ | running _ => exact absurd halive (Nat.not_succ_le_zero 0)
  | receiving | exited => exact hholds

/-- The step is no return of `Wait`, or the tasks accepted before the call are in no worker's hand. -/
theorem Waited.step (hb : Books n t p) (h : Waited t p) (hs : Step p evs p') (hset : Settled p evs p') :
    Waited (t ++ evs) p' := by
  have hb' := hb.step hs
  have hold : ∀ c ∈ p'.waits, c ∈ p.waits → c.pc = .returned → ∀ i ∈ c.before, finishes (t ++ evs) i = 1 :=
    fun c hc' hc hpc i hi => hb'.finishes_stays (hb'.before c hc' i hi) (h c hc hpc i hi)
  have hreturn : ∀ {j : Nat} {before : List Nat} {pc : WaitPc}, p.waits[j]? = some ⟨before, pc⟩ →
      p'.waits = p.waits.set j ⟨before, .returned⟩ → (∀ w ∈ p.workers, ∀ i ∈ before, ¬ w.holds i) →
      Waited (t ++ evs) p' := by
    intro j before pc hj hp' hidle c hc hpc i hi
    have hc' := hc
    rw [hp'] at hc'
    rcases List.mem_or_eq_of_mem_set hc' with hmem | rfl
    · exact hold c hc hmem hpc i hi
    · have hcredit := hb.before _ (List.mem_of_getElem? hj) i hi
      have hfin := hb.finishes_eq hcredit fun w hw => hidle w hw i hi
      exact hb'.finishes_stays (hb'.before _ hc i hi) hfin
  cases hs with
  | submit hs =>
      have hw : p'.waits = p.waits := by cases hs <;> rfl
      exact fun c hc => hold c hc (hw ▸ hc)
  | worker hs =>
      have hw : p'.waits = p.waits := by cases hs <;> rfl
      exact fun c hc => hold c hc (hw ▸ hc)
  | wait hs =>
      cases hs with
      | Q_Call =>
          intro c hc hpc
          rcases List.mem_append.mp hc with hmem | hmem
          · exact hold c hc hmem hpc
          · rw [List.mem_singleton.mp hmem] at hpc
            exact nomatch hpc
      | Q_Close hj _ =>
          intro c hc hpc
          rcases List.mem_or_eq_of_mem_set hc with hmem | rfl
          · exact hold c hc hmem hpc
          · exact nomatch hpc
      | Q_Skip hj _ => exact hreturn hj rfl fun w hw i hi => hset _ _ rfl hj rfl w hw i hi
      | Q_Return hj hwg => exact hreturn hj rfl fun w hw i _ => hb.idle hwg w hw

/-! ## `Submit` -/

/-- The pool is closed when no call of `Submit` or `SubmitCtx` is between its check and its send. -/
def Unhurried (p : Pool) (evs : List Event) (_ : Pool) : Prop :=
  ∀ j, evs = [.waitClosed j] → ∀ c ∈ p.submits, c.pc ≠ .sending

/-- The ends that the documentation of `SubmitCtx` and of `Submit` names. -/
def SubmitCall.Documented (c : SubmitCall) : Prop :=
  ∀ o, c.pc = .ended o →
    if c.ctx then o = .accepted ∨ o = .errClosed ∨ o = .ctxErr else o = .accepted ∨ o = .closedPanic

structure Orderly (p : Pool) : Prop where
  closed : p.closed = true → ∀ c ∈ p.submits, c.pc ≠ .sending
  documented : ∀ c ∈ p.submits, c.Documented

theorem Orderly.setSubmit (h : Orderly p) {c : SubmitCall} (hc : c.Documented)
    (hclosed : p.closed = true → c.pc ≠ .sending) : Orderly (p.setSubmit i c) := by
  constructor
  · intro hp d hd
    rcases List.mem_or_eq_of_mem_set hd with hd | rfl
    · exact h.closed hp d hd
    · exact hclosed hp
  · intro d hd
    rcases List.mem_or_eq_of_mem_set hd with hd | rfl
    · exact h.documented d hd
    · exact hc

theorem documented_ended {ctx : Bool} {o : Outcome}
    (h : if ctx then o = .accepted ∨ o = .errClosed ∨ o = .ctxErr else o = .accepted ∨ o = .closedPanic) :
    SubmitCall.Documented ⟨ctx, .ended o⟩ := by
  intro o' ho'
  cases ho'
  exact h

theorem Orderly.submitStep (h : Orderly p) (hs : SubmitStep p evs p') : Orderly p' := by
  cases hs with
  | S_Call ctx =>
      constructor
      · intro hp c hc
        rcases List.mem_append.mp hc with hc | hc
        · exact h.closed hp c hc
        · rw [List.mem_singleton.mp hc]
          exact fun hpc => nomatch hpc
      · intro c hc
        rcases List.mem_append.mp hc with hc | hc
        · exact h.documented c hc
        · rw [List.mem_singleton.mp hc]
          exact fun _ hpc => nomatch hpc
  | @S_Closed i ctx o _ _ ho =>
      refine h.setSubmit (documented_ended ?_) fun _ hpc => nomatch hpc
      subst ho
      cases ctx <;> simp
  | S_Checked _ hopen =>
      refine h.setSubmit (fun _ hpc => nomatch hpc) fun hp => ?_
      rw [hopen] at hp
      exact nomatch hp
  | @S_Send i k ctx _ _ _ =>
      have := h.setSubmit (i := i) (c := ⟨ctx, .ended .accepted⟩)
        (documented_ended (by cases ctx <;> simp)) fun _ hpc => nomatch hpc
      exact ⟨this.closed, this.documented⟩
  | S_Panic hi hclosed => exact absurd rfl (h.closed hclosed _ (List.mem_of_getElem? hi))
  | S_Cancelled _ => exact h.setSubmit (documented_ended (by simp)) fun _ hpc => nomatch hpc

theorem Orderly.step (h : Orderly p) (hs : Step p evs p') (hun : Unhurried p evs p') : Orderly p' := by
  cases hs with
  | submit hs => exact h.submitStep hs
  | worker hs => cases hs <;> exact ⟨h.closed, h.documented⟩
  | wait hs =>
      cases hs with
      | Q_Close _ _ => exact ⟨fun _ => hun _ rfl, h.documented⟩
      | Q_Call | Q_Skip _ _ | Q_Return _ _ => exact ⟨h.closed, h.documented⟩

end Gopkg.Workerpool
