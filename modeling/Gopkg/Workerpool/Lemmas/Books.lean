import Gopkg.Lts.Slots
import Gopkg.Workerpool.Pool

/-!
# Every task once

The books of the pool: a task that was accepted has begun, or one worker has it in hand; and a task that has
begun is finished, or one worker is running it.
-/

namespace Gopkg.Workerpool

open Lts

variable {n : Nat} {t evs : List Event} {p p' : Pool} {i : Nat}

/-! ## Counts -/

def WorkerPc.hasReceived (i : Nat) : WorkerPc → Nat
  | .received j => if j = i then 1 else 0
  | _ => 0

def WorkerPc.isRunning (i : Nat) : WorkerPc → Nat
  | .running j => if j = i then 1 else 0
  | _ => 0

def WorkerPc.alive : WorkerPc → Nat
  | .exited => 0
  | _ => 1

def begins (t : List Event) (i : Nat) : Nat := t.count (.began i)

def Event.isFinish (i : Nat) : Event → Bool
  | .finished j _ => j == i
  | _ => false

def finishes (t : List Event) (i : Nat) : Nat := t.countP (Event.isFinish i)

def SubmitCall.credit (c : SubmitCall) : Nat := if c.accepted then 1 else 0

/-- One for a task that was accepted. -/
def Pool.credit (p : Pool) (i : Nat) : Nat := (p.submits[i]?.map SubmitCall.credit).getD 0

theorem begins_append (t t' : List Event) (i : Nat) : begins (t ++ t') i = begins t i + begins t' i :=
  List.count_append

theorem finishes_append (t t' : List Event) (i : Nat) : finishes (t ++ t') i = finishes t i + finishes t' i :=
  List.countP_append

theorem begins_began (i j : Nat) : begins [.began i] j = if i = j then 1 else 0 := by
  simp [begins, List.count_singleton]

theorem finishes_finished (i j : Nat) (panicked : Bool) :
    finishes [.finished i panicked] j = if i = j then 1 else 0 := by
  simp [finishes, Event.isFinish, List.countP_singleton]

theorem credit_setSubmit {c d : SubmitCall} (h : p.submits[i]? = some c) (k : Nat) :
    (p.setSubmit i d).credit k = if i = k then d.credit else p.credit k := by
  obtain ⟨hi, _⟩ := List.getElem?_eq_some_iff.mp h
  simp only [Pool.credit, Pool.setSubmit, List.getElem?_set, hi, ↓reduceIte]
  split <;> rfl

theorem credit_of_submits {c : SubmitCall} (h : p.submits[i]? = some c) : p.credit i = c.credit := by
  rw [Pool.credit, h]
  rfl

theorem credit_snoc (c : SubmitCall) (hc : c.credit = 0) (k : Nat) :
    { p with submits := p.submits ++ [c] }.credit k = p.credit k := by
  simp only [Pool.credit, List.getElem?_append]
  split
  · rfl
  · rename_i hk
    rw [List.getElem?_eq_none (Nat.not_lt.mp hk)]
    cases hd : k - p.submits.length with
    | zero => simpa using hc
    | succ m => rfl

theorem mem_accepted : i ∈ p.accepted ↔ p.credit i = 1 := by
  simp only [Pool.accepted, List.mem_filter, List.mem_range, Pool.credit]
  cases h : p.submits[i]? with
  | none =>
      have := List.getElem?_eq_none_iff.mp h
      simp
  | some c =>
      obtain ⟨hi, _⟩ := List.getElem?_eq_some_iff.mp h
      simp [hi, SubmitCall.credit]

/-! ## The books -/

structure Books (n : Nat) (t : List Event) (p : Pool) : Prop where
  length : p.workers.length = n
  wg : p.wg = total WorkerPc.alive p.workers
  begun : ∀ i, begins t i + total (WorkerPc.hasReceived i) p.workers = p.credit i
  finished : ∀ i, finishes t i + total (WorkerPc.isRunning i) p.workers = begins t i
  before : ∀ c ∈ p.waits, ∀ i ∈ c.before, p.credit i = 1

theorem Books.new (workers : Int) : Books (size workers) [] (new workers) := by
  have hzero : ∀ f : WorkerPc → Nat, f .receiving = 0 → total f (Workerpool.new workers).workers = 0 := by
    intro f hf
    simp [total, Workerpool.new, hf]
  refine ⟨by simp [Workerpool.new], by simp [total, Workerpool.new, WorkerPc.alive], fun i => ?_, fun i => ?_,
    fun c hc => absurd hc List.not_mem_nil⟩
  · rw [hzero _ rfl]
    rfl
  · rw [hzero _ rfl]
    rfl

/-- A step that moves no worker. -/
theorem Books.still (h : Books n t p) (hw : p'.workers = p.workers) (hwg : p'.wg = p.wg)
    (hc : ∀ i, p'.credit i = p.credit i) (hb : ∀ i, begins evs i = 0) (hf : ∀ i, finishes evs i = 0)
    (hbefore : ∀ c ∈ p'.waits, ∀ i ∈ c.before, p'.credit i = 1) : Books n (t ++ evs) p' := by
  refine ⟨hw ▸ h.length, ?_, fun i => ?_, fun i => ?_, hbefore⟩
  · rw [hw, hwg, h.wg]
  · rw [hw, hc, begins_append, hb, Nat.add_zero]
    exact h.begun i
  · rw [hw, begins_append, finishes_append, hb, hf, Nat.add_zero, Nat.add_zero]
    exact h.finished i

theorem Books.submit (h : Books n t p) {c c' : SubmitCall} (hi : p.submits[i]? = some c)
    (hcc : c'.credit = c.credit) (hb : ∀ i, begins evs i = 0) (hf : ∀ i, finishes evs i = 0) :
    Books n (t ++ evs) (p.setSubmit i c') := by
  have hc : ∀ k, (p.setSubmit i c').credit k = p.credit k := by
    intro k
    rw [credit_setSubmit hi]
    split
    · rename_i hik
      rw [hcc, ← hik, credit_of_submits hi]
    · rfl
  exact h.still rfl rfl hc hb hf fun w hw k hk => (hc k).trans (h.before w hw k hk)

/-- A step of the worker `k` from the place `w` to the place `w'`. -/
theorem Books.worker (h : Books n t p) {k : Nat} {w w' : WorkerPc} (hk : p.workers[k]? = some w)
    (hw : p'.workers = p.workers.set k w') (hwg : p'.wg + w.alive = p.wg + w'.alive)
    (hc : ∀ i, p'.credit i + w.hasReceived i = p.credit i + begins evs i + w'.hasReceived i)
    (hb : ∀ i, begins evs i + w.isRunning i = finishes evs i + w'.isRunning i)
    (hbefore : ∀ c ∈ p'.waits, ∀ i ∈ c.before, p'.credit i = 1) : Books n (t ++ evs) p' := by
  refine ⟨?_, ?_, fun i => ?_, fun i => ?_, hbefore⟩
  · rw [hw, List.length_set, h.length]
  · have := total_set (f := WorkerPc.alive) (b := w') hk
    have := h.wg
    rw [hw]
    omega
  · have := total_set (f := WorkerPc.hasReceived i) (b := w') hk
    have := h.begun i
    have := hc i
    rw [hw, begins_append]
    omega
  · have := total_set (f := WorkerPc.isRunning i) (b := w') hk
    have := h.finished i
    have := hb i
    rw [hw, begins_append, finishes_append]
    omega

theorem Books.submitStep (h : Books n t p) (hs : SubmitStep p evs p') : Books n (t ++ evs) p' := by
  cases hs with
  | S_Call ctx =>
      have hc := credit_snoc (p := p) ⟨ctx, .checking⟩ rfl
      exact h.still rfl rfl hc (fun _ => rfl) (fun _ => rfl) fun w hw k hk => (hc k).trans (h.before w hw k hk)
  | @S_Closed i ctx o hi _ ho =>
      refine h.submit hi ?_ (fun _ => rfl) (fun _ => rfl)
      subst ho
      cases ctx <;> rfl
  | S_Checked hi _ => exact h.submit hi rfl (fun _ => rfl) (fun _ => rfl)
  | @S_Send i k ctx hi hk _ =>
      have hcredit := credit_setSubmit (d := ⟨ctx, .ended .accepted⟩) hi
      have hone : p.credit i = 0 := credit_of_submits hi
      refine h.worker hk rfl rfl (fun j => ?_) (fun _ => rfl) fun w hw j hj => ?_
      · change (p.setSubmit i _).credit j + 0 = p.credit j + 0 + _
        rw [hcredit]
        simp only [WorkerPc.hasReceived]
        split
        · rename_i hij
          rw [← hij, hone]
          rfl
        · rfl
      · change (p.setSubmit i _).credit j = 1
        rw [hcredit]
        split
        · rfl
        · exact h.before w hw j hj
  | S_Panic hi _ => exact h.submit hi rfl (fun _ => rfl) (fun _ => rfl)
  | S_Cancelled hi => exact h.submit hi rfl (fun _ => rfl) (fun _ => rfl)

theorem Books.workerStep (h : Books n t p) (hs : WorkerStep p evs p') : Books n (t ++ evs) p' := by
  cases hs with
  | @W_Begin k i hk =>
      refine h.worker hk rfl rfl (fun j => ?_) (fun j => ?_) h.before
      · change p.credit j + _ = p.credit j + _ + 0
        rw [begins_began]
        rfl
      · rw [begins_began]
        exact Nat.add_comm _ _
  | @W_Finish k i panicked hk =>
      refine h.worker hk rfl rfl (fun _ => rfl) (fun j => ?_) h.before
      rw [finishes_finished]
      exact Nat.add_comm _ _
  | @W_Exit k hk _ =>
      have hpos : 0 < p.wg := by
        have := le_total (f := WorkerPc.alive) hk
        rw [h.wg]
        exact Nat.lt_of_lt_of_le Nat.zero_lt_one this
      refine h.worker hk rfl ?_ (fun _ => rfl) (fun _ => rfl) h.before
      exact Nat.sub_add_cancel hpos

theorem Books.waitStep (h : Books n t p) (hs : WaitStep p evs p') : Books n (t ++ evs) p' := by
  have hset : ∀ {j : Nat} {before : List Nat} {pc pc' : WaitPc}, p.waits[j]? = some ⟨before, pc⟩ →
      ∀ c ∈ p.waits.set j ⟨before, pc'⟩, ∀ i ∈ c.before, p.credit i = 1 := by
    intro j before pc pc' hj c hc
    rcases List.mem_or_eq_of_mem_set hc with hc | rfl
    · exact h.before c hc
    · exact h.before ⟨before, pc⟩ (List.mem_of_getElem? hj)
  cases hs with
  | Q_Call =>
      refine h.still rfl rfl (fun _ => rfl) (fun _ => rfl) (fun _ => rfl) fun c hc => ?_
      rcases List.mem_append.mp hc with hc | hc
      · exact h.before c hc
      · rw [List.mem_singleton.mp hc]
        exact fun i hi => mem_accepted.mp hi
  | Q_Close hj _ | Q_Skip hj _ | Q_Return hj _ =>
      exact h.still rfl rfl (fun _ => rfl) (fun _ => rfl) (fun _ => rfl) (hset hj)

theorem Books.step (h : Books n t p) (hs : Step p evs p') : Books n (t ++ evs) p' := by
  cases hs with
  | submit hs => exact h.submitStep hs
  | worker hs => exact h.workerStep hs
  | wait hs => exact h.waitStep hs

theorem Books.run {workers : Int} (hr : Run Step (Workerpool.new workers) t p) : Books (size workers) t p :=
  hr.invariant (.new workers) fun _ _ _ _ h hs => h.step hs

end Gopkg.Workerpool
