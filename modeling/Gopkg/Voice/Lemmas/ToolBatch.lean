import Gopkg.Lts.Slots
import Gopkg.Voice.ToolBatch

/-!
# Runs of a tool batch

The invariant of a batch: what its trace shows of the calls, and how the semaphore and the wait group count
the workers. Then the batch comes to its end under every schedule.
-/

namespace Gopkg.Voice

open Lts

variable {V : Type} {n : Nat} {calls : List (ToolCall V)} {t evs : List (Event V)} {b b' : Batch V}
  {filler : Filler}

/-! ## What a trace shows of the calls -/

inductive ToolStep (V : Type) where
  | called (c : ToolCall V)
  | begun (i : Nat)
  | ended (i : Nat) (o : Outcome V)
  | responded (c : ToolCall V) (data : Option V) (err : Option (Err V))
  | sent (results : List (ToolResult V))

def Event.tool? : Event V → Option (ToolStep V)
  | .callback (.onToolCall c) _ => some (.called c)
  | .executeBegin i => some (.begun i)
  | .executeEnd i o => some (.ended i o)
  | .callback (.onToolResponse c data err) _ => some (.responded c data err)
  | .sendToolResults results _ => some (.sent results)
  | _ => none

def toolSteps (t : List (Event V)) : List (ToolStep V) := t.filterMap Event.tool?

theorem toolSteps_append (t evs : List (Event V)) : toolSteps (t ++ evs) = toolSteps t ++ toolSteps evs :=
  List.filterMap_append

/-- The `Execute` call of the `i`-th tool call. -/
def ToolStep.isOf (i : Nat) : ToolStep V → Bool
  | .begun j => j == i
  | .ended j _ => j == i
  | _ => false

def ToolStep.isExecute : ToolStep V → Bool
  | .begun _ => true
  | .ended _ _ => true
  | _ => false

def responses (calls : List (ToolCall V)) (results : List (ToolResult V)) : List (ToolStep V) :=
  (calls.zip results).map fun p => .responded p.1 p.2.data p.2.err

/-- The calls that `OnToolCall` has announced. -/
def Batch.announced (b : Batch V) : List (ToolStep V) :=
  match b.pc with
  | .announce k => (b.calls.take k).map .called
  | _ => b.calls.map .called

/-- The responses that `OnToolResponse` has announced, and the results that were sent. -/
def Batch.answered (b : Batch V) : List (ToolStep V) :=
  match b.pc with
  | .respond k => (responses b.calls b.results).take k
  | .send => responses b.calls b.results
  | .report _ | .finished => responses b.calls b.results ++ [.sent b.results]
  | _ => []

/-- The part of the `i`-th `Execute` call that a trace shows, for the place of its worker. -/
def Batch.Shown (b : Batch V) (i : Nat) (es : List (ToolStep V)) : Prop :=
  match b.workers[i]? with
  | none | some .ready => es = []
  | some .executing => es = [.begun i]
  | some (.storing o) => es = [.begun i, .ended i o]
  | some .releasing | some .finishing | some .gone =>
      ∃ o c, es = [.begun i, .ended i o] ∧ b.calls[i]? = some c ∧ b.results[i]? = some (toolResult c o)

/-! ## Counting the workers -/

/-- The worker holds a token of the semaphore. -/
def WorkerPc.token : WorkerPc V → Nat
  | .ready | .executing | .storing _ | .releasing => 1
  | .finishing | .gone => 0

/-- The worker has not called `wg.Done`. -/
def WorkerPc.alive : WorkerPc V → Nat
  | .gone => 0
  | _ => 1

def WorkerPc.running : WorkerPc V → Nat
  | .executing => 1
  | _ => 0

/-- The workers the calling goroutine has started. -/
def BatchPc.spawned (n : Nat) : BatchPc V → Nat
  | .announce _ => 0
  | .add k | .acquire k => k
  | _ => n

/-- The call that was added to the wait group and has no worker yet. -/
def BatchPc.added : BatchPc V → Nat
  | .acquire _ => 1
  | _ => 0

def BatchPc.Within (n : Nat) : BatchPc V → Prop
  | .announce k | .add k | .respond k => k ≤ n
  | .acquire k => k < n
  | _ => True

def BatchPc.Over : BatchPc V → Prop
  | .closeDone | .cancelHold | .clear | .respond _ | .send | .report _ | .finished => True
  | _ => False

structure BatchLaw (n : Nat) (calls : List (ToolCall V)) (t : List (Event V)) (b : Batch V) : Prop where
  calls_eq : b.calls = calls
  results_length : b.results.length = calls.length
  within : b.pc.Within calls.length
  spawned : b.workers.length = b.pc.spawned calls.length
  sem : b.sem = total WorkerPc.token b.workers
  bound : b.sem ≤ n
  wg : b.wg = total WorkerPc.alive b.workers + b.pc.added
  joined : b.pc.Over → ∀ w ∈ b.workers, w = .gone
  shown : ∃ es, toolSteps t = b.announced ++ es ++ b.answered ∧ (∀ e ∈ es, e.isExecute = true) ∧
    ∀ i, b.Shown i (es.filter (ToolStep.isOf i))

theorem BatchLaw.init (n : Nat) (calls : List (ToolCall V)) : BatchLaw n calls [] (.init calls) where
  calls_eq := rfl
  results_length := List.length_replicate
  within := Nat.zero_le _
  spawned := rfl
  sem := rfl
  bound := Nat.zero_le _
  wg := rfl
  joined := False.elim
  shown := ⟨[], rfl, by simp, fun i => rfl⟩

/-! ## The workers -/

theorem ToolStep.isOf_unique {i j : Nat} {e : ToolStep V} (hi : e.isOf i = true) (hj : e.isOf j = true) :
    i = j := by
  cases e with
  | begun k => exact (beq_iff_eq.mp hi).symm.trans (beq_iff_eq.mp hj)
  | ended k o => exact (beq_iff_eq.mp hi).symm.trans (beq_iff_eq.mp hj)
  | called _ | responded _ _ _ | sent _ => cases hi

theorem ToolStep.isExecute_of_isOf {i : Nat} {e : ToolStep V} (h : e.isOf i = true) : e.isExecute = true := by
  cases e with
  | begun k => rfl
  | ended k o => rfl
  | called _ | responded _ _ _ | sent _ => cases h

theorem answered_eq_nil (h : ¬ b.pc.Over) : b.answered = [] := by
  unfold Batch.answered
  cases hpc : b.pc with
  | announce _ | add _ | acquire _ | wait | closeDone | cancelHold | clear => rfl
  | respond _ | send | report _ | finished =>
      rw [hpc] at h
      exact absurd trivial h

theorem BatchLaw.not_over (h : BatchLaw n calls t b) {i : Nat} {w : WorkerPc V} (hw : b.workers[i]? = some w)
    (hne : w ≠ .gone) : ¬ b.pc.Over :=
  fun ho => hne (h.joined ho w (List.mem_of_getElem? hw))

theorem BatchLaw.worker (h : BatchLaw n calls t b) {i : Nat} {w : WorkerPc V} (w' : WorkerPc V)
    {results : List (ToolResult V)} {sem wg : Nat}
    (hb : b' = { b with workers := b.workers.set i w', results := results, sem := sem, wg := wg })
    (hw : b.workers[i]? = some w) (hne : w ≠ .gone)
    (hlen : results.length = b.results.length) (hres : ∀ j, j ≠ i → results[j]? = b.results[j]?)
    (hsem : sem + w.token = b.sem + w'.token) (htoken : w'.token ≤ w.token)
    (hwg : wg + w.alive = b.wg + w'.alive) (hes : ∀ e ∈ toolSteps evs, e.isOf i = true)
    (hshow : ∀ es, b.Shown i es → b'.Shown i (es ++ toolSteps evs)) : BatchLaw n calls (t ++ evs) b' := by
  have hover := h.not_over hw hne
  have hover' : ¬ b'.pc.Over := by rw [hb]; exact hover
  obtain ⟨es, hsteps, hexec, hshown⟩ := h.shown
  have htotal := total_set (f := WorkerPc.token) (b := w') hw
  have htotal' := total_set (f := WorkerPc.alive) (b := w') hw
  have hsem' := h.sem
  have hbound := h.bound
  have hwg' := h.wg
  refine ⟨?_, ?_, ?_, ?_, ?_, ?_, ?_, fun ho => absurd ho hover', es ++ toolSteps evs, ?_, ?_, fun j => ?_⟩
  · rw [hb]; exact h.calls_eq
  · rw [hb]; exact hlen.trans h.results_length
  · rw [hb]; exact h.within
  · rw [hb]; exact List.length_set.trans h.spawned
  · rw [hb]; dsimp only; omega
  · rw [hb]; dsimp only; omega
  · rw [hb]; dsimp only; omega
  · have hannounced : b'.announced = b.announced := by rw [hb]; rfl
    rw [toolSteps_append, hsteps, answered_eq_nil hover, answered_eq_nil hover', hannounced, List.append_nil,
      List.append_nil, List.append_assoc]
  · intro e he
    rcases List.mem_append.mp he with he | he
    · exact hexec e he
    · exact ToolStep.isExecute_of_isOf (hes e he)
  · rw [List.filter_append]
    by_cases hj : j = i
    · subst hj
      rw [List.filter_eq_self.mpr hes]
      exact hshow _ (hshown j)
    · -- the other workers have not moved
      have hnone : (toolSteps evs).filter (ToolStep.isOf j) = [] :=
        List.filter_eq_nil_iff.mpr fun e he hof => hj (ToolStep.isOf_unique hof (hes e he))
      have hset : (b.workers.set i w')[j]? = b.workers[j]? := List.getElem?_set_ne (Ne.symm hj)
      have hold := hshown j
      rw [hnone, List.append_nil, hb]
      simp only [Batch.Shown, hset, hres j hj] at hold ⊢
      exact hold

theorem BatchLaw.begin (h : BatchLaw n calls t b) {i : Nat} (hw : b.workers[i]? = some .ready) :
    BatchLaw n calls (t ++ [.executeBegin i]) (b.setWorker i .executing) := by
  refine h.worker .executing rfl hw (by simp) rfl (fun _ _ => rfl) rfl (Nat.le_refl _) rfl
    (by simp [toolSteps, Event.tool?, ToolStep.isOf]) fun es hes => ?_
  simp only [Batch.Shown, hw] at hes
  simp only [Batch.Shown, Batch.setWorker, getElem?_set_slot hw, hes]
  rfl

theorem BatchLaw.finish (h : BatchLaw n calls t b) {i : Nat} (o : Outcome V)
    (hw : b.workers[i]? = some .executing) :
    BatchLaw n calls (t ++ [.executeEnd i o]) (b.setWorker i (.storing o)) := by
  refine h.worker (.storing o) rfl hw (by simp) rfl (fun _ _ => rfl) rfl (Nat.le_refl _) rfl
    (by simp [toolSteps, Event.tool?, ToolStep.isOf]) fun es hes => ?_
  simp only [Batch.Shown, hw] at hes
  simp only [Batch.Shown, Batch.setWorker, getElem?_set_slot hw, hes]
  rfl

theorem BatchLaw.store (h : BatchLaw n calls t b) {i : Nat} {o : Outcome V} {c : ToolCall V}
    (hw : b.workers[i]? = some (.storing o)) (hc : b.calls[i]? = some c) :
    BatchLaw n calls (t ++ []) { b.setWorker i .releasing with results := b.results.set i (toolResult c o) } := by
  have hi : i < b.results.length := by
    rw [h.results_length, ← h.calls_eq]
    exact (List.getElem?_eq_some_iff.mp hc).1
  refine h.worker .releasing rfl hw (by simp) List.length_set
    (fun j hj => List.getElem?_set_ne (Ne.symm hj)) rfl (Nat.le_refl _) rfl (by simp [toolSteps])
    fun es hes => ?_
  simp only [Batch.Shown, hw] at hes
  simp only [Batch.Shown, Batch.setWorker, getElem?_set_slot hw]
  exact ⟨o, c, by simp [hes, toolSteps], hc, List.getElem?_set_self hi⟩

theorem BatchLaw.release (h : BatchLaw n calls t b) {i : Nat} (hw : b.workers[i]? = some .releasing)
    (hsem : 0 < b.sem) : BatchLaw n calls (t ++ []) { b.setWorker i .finishing with sem := b.sem - 1 } := by
  refine h.worker .finishing rfl hw (by simp) rfl (fun _ _ => rfl) (Nat.sub_add_cancel hsem)
    (Nat.zero_le _) rfl (by simp [toolSteps]) fun es hes => ?_
  simp only [Batch.Shown, hw] at hes
  simp only [Batch.Shown, Batch.setWorker, getElem?_set_slot hw]
  simpa [toolSteps] using hes

theorem BatchLaw.wgDone (h : BatchLaw n calls t b) {i : Nat} (hw : b.workers[i]? = some .finishing) :
    BatchLaw n calls (t ++ []) { b.setWorker i .gone with wg := b.wg - 1 } := by
  have hle : 1 ≤ b.wg := by
    have := le_total (f := WorkerPc.alive) hw
    rw [h.wg]
    exact Nat.le_add_right_of_le this
  refine h.worker .gone rfl hw (by simp) rfl (fun _ _ => rfl) rfl
    (Nat.zero_le _) (Nat.sub_add_cancel hle) (by simp [toolSteps]) fun es hes => ?_
  simp only [Batch.Shown, hw] at hes
  simp only [Batch.Shown, Batch.setWorker, getElem?_set_slot hw]
  simpa [toolSteps] using hes

/-! ## The calling goroutine -/

theorem ToolStep.exists_isOf {e : ToolStep V} (h : e.isExecute = true) : ∃ i, e.isOf i = true := by
  cases e with
  | begun i => exact ⟨i, beq_self_eq_true i⟩
  | ended i o => exact ⟨i, beq_self_eq_true i⟩
  | called _ | responded _ _ _ | sent _ => cases h

/-- Without workers there is no `Execute` call to show. -/
theorem shown_nil {es : List (ToolStep V)} (hexec : ∀ e ∈ es, e.isExecute = true)
    (hshown : ∀ i, b.Shown i (es.filter (ToolStep.isOf i))) (hw : b.workers = []) : es = [] := by
  refine List.eq_nil_iff_forall_not_mem.mpr fun e he => ?_
  obtain ⟨i, hi⟩ := ToolStep.exists_isOf (hexec e he)
  have hnone := hshown i
  simp only [Batch.Shown, hw, List.getElem?_nil, List.filter_eq_nil_iff] at hnone
  exact hnone e he hi

/-- A step of the calling goroutine that starts no worker. -/
theorem BatchLaw.caller (h : BatchLaw n calls t b) (hcalls : b'.calls = b.calls)
    (hresults : b'.results = b.results) (hworkers : b'.workers = b.workers) (hsem : b'.sem = b.sem)
    (hwithin : b'.pc.Within calls.length) (hspawned : b'.pc.spawned calls.length = b.pc.spawned calls.length)
    (hwg : b'.wg + b.pc.added = b.wg + b'.pc.added) (hover : b'.pc.Over → ∀ w ∈ b.workers, w = .gone)
    (hsteps : ∀ es, (b.workers = [] → es = []) →
      b'.announced ++ es ++ b'.answered = b.announced ++ es ++ b.answered ++ toolSteps evs) :
    BatchLaw n calls (t ++ evs) b' := by
  obtain ⟨es, hes, hexec, hshown⟩ := h.shown
  have hwg' := h.wg
  refine ⟨hcalls.trans h.calls_eq, by rw [hresults]; exact h.results_length, hwithin, ?_, ?_, ?_, ?_,
    by rw [hworkers]; exact hover, es, ?_, hexec, fun i => ?_⟩
  · rw [hworkers, hspawned]; exact h.spawned
  · rw [hsem, hworkers]; exact h.sem
  · rw [hsem]; exact h.bound
  · rw [hworkers]; omega
  · rw [toolSteps_append, hes, hsteps es (shown_nil hexec hshown)]
  · have := hshown i
    simp only [Batch.Shown, hworkers, hcalls, hresults] at this ⊢
    exact this

theorem BatchLaw.announce (h : BatchLaw n calls t b) {k : Nat} {c : ToolCall V} {p : Bool}
    (hpc : b.pc = .announce k) (hc : b.calls[k]? = some c) :
    BatchLaw n calls (t ++ [.callback (.onToolCall c) p]) { b with pc := .announce (k + 1) } := by
  have hk : k < calls.length := by
    rw [← h.calls_eq]
    exact (List.getElem?_eq_some_iff.mp hc).1
  refine h.caller rfl rfl rfl rfl hk (by rw [hpc]; rfl) (by rw [hpc]; rfl) nofun fun es hes => ?_
  have hw : b.workers = [] := List.length_eq_zero_iff.mp (by rw [h.spawned, hpc]; rfl)
  simp [Batch.announced, Batch.answered, hpc, hes hw, toolSteps, Event.tool?, List.take_add_one, hc]

theorem BatchLaw.watch (h : BatchLaw n calls t b) (hpc : b.pc = .announce b.calls.length) :
    BatchLaw n calls (t ++ []) { b with pc := .add 0, hold := .waiting } := by
  refine h.caller rfl rfl rfl rfl (Nat.zero_le _) (by rw [hpc]; rfl) (by rw [hpc]; rfl) nofun fun es _ => ?_
  simp [Batch.announced, Batch.answered, hpc, toolSteps]

theorem BatchLaw.add (h : BatchLaw n calls t b) {k : Nat} (hpc : b.pc = .add k) (hk : k < b.calls.length) :
    BatchLaw n calls (t ++ []) { b with pc := .acquire k, wg := b.wg + 1 } := by
  rw [h.calls_eq] at hk
  refine h.caller rfl rfl rfl rfl hk (by rw [hpc]; rfl) (by rw [hpc]; rfl) nofun fun es _ => ?_
  simp [Batch.announced, Batch.answered, hpc, toolSteps]

theorem BatchLaw.acquire (h : BatchLaw n calls t b) {k : Nat} (hpc : b.pc = .acquire k) (hsem : b.sem < n) :
    BatchLaw n calls (t ++ [])
      { b with pc := .add (k + 1), sem := b.sem + 1, workers := b.workers ++ [.ready] } := by
  obtain ⟨es, hes, hexec, hshown⟩ := h.shown
  have hwithin := h.within
  have hspawned := h.spawned
  have hwg := h.wg
  rw [hpc] at hwithin hspawned hwg
  refine ⟨h.calls_eq, h.results_length, hwithin, ?_, ?_, hsem, ?_, False.elim, es, ?_, hexec, fun i => ?_⟩
  · rw [List.length_append, hspawned]; rfl
  · rw [total_snoc, ← h.sem]; rfl
  · rw [total_snoc, hwg]; rfl
  · rw [List.append_nil, hes]
    simp [Batch.announced, Batch.answered, hpc]
  · -- the new worker shows nothing yet, as before it was there
    have hold := hshown i
    rcases Nat.lt_trichotomy i b.workers.length with hi | hi | hi
    · simp only [Batch.Shown, List.getElem?_append_left hi] at hold ⊢
      exact hold
    · subst hi
      simpa [Batch.Shown] using hold
    · have hnone : (b.workers ++ [WorkerPc.ready])[i]? = none := by
        rw [List.getElem?_eq_none_iff, List.length_append]
        exact hi
      simp only [Batch.Shown, hnone, List.getElem?_eq_none (Nat.le_of_lt hi)] at hold ⊢
      exact hold

theorem BatchLaw.spawnedAll (h : BatchLaw n calls t b) (hpc : b.pc = .add b.calls.length) :
    BatchLaw n calls (t ++ []) { b with pc := .wait } := by
  rw [h.calls_eq] at hpc
  refine h.caller rfl rfl rfl rfl trivial (by rw [hpc]; rfl) (by rw [hpc]; rfl) nofun fun es _ => ?_
  simp [Batch.announced, Batch.answered, hpc, toolSteps]

/-- The wait group is empty when every worker is gone. -/
theorem BatchLaw.waited (h : BatchLaw n calls t b) (hpc : b.pc = .wait) (hwg : b.wg = 0) :
    BatchLaw n calls (t ++ []) { b with pc := .closeDone } := by
  refine h.caller rfl rfl rfl rfl trivial (by rw [hpc]; rfl) (by rw [hpc]; rfl) (fun _ w hw => ?_) fun es _ => ?_
  · obtain ⟨i, hi⟩ := List.mem_iff_getElem?.mp hw
    have hle := le_total (f := WorkerPc.alive) hi
    have hzero := h.wg
    rw [hwg, hpc] at hzero
    cases w with
    | gone => rfl
    | ready | executing | storing _ | releasing | finishing =>
        simp only [WorkerPc.alive, BatchPc.added] at hle hzero
        omega
  · simp [Batch.announced, Batch.answered, hpc, toolSteps]

theorem BatchLaw.closeDone (h : BatchLaw n calls t b) (hpc : b.pc = .closeDone) :
    BatchLaw n calls (t ++ []) { b with pc := .cancelHold, done := true } := by
  refine h.caller rfl rfl rfl rfl trivial (by rw [hpc]; rfl) (by rw [hpc]; rfl)
    (fun _ => h.joined (by rw [hpc]; trivial)) fun es _ => ?_
  simp [Batch.announced, Batch.answered, hpc, toolSteps]

theorem BatchLaw.cancelHold (h : BatchLaw n calls t b) (hpc : b.pc = .cancelHold) :
    BatchLaw n calls (t ++ []) { b with pc := .clear, holdCancelled := true } := by
  refine h.caller rfl rfl rfl rfl trivial (by rw [hpc]; rfl) (by rw [hpc]; rfl)
    (fun _ => h.joined (by rw [hpc]; trivial)) fun es _ => ?_
  simp [Batch.announced, Batch.answered, hpc, toolSteps]

theorem BatchLaw.clear (h : BatchLaw n calls t b) (hpc : b.pc = .clear) :
    BatchLaw n calls (t ++ [.clear]) { b with pc := .respond 0 } := by
  refine h.caller rfl rfl rfl rfl (Nat.zero_le _) (by rw [hpc]; rfl) (by rw [hpc]; rfl)
    (fun _ => h.joined (by rw [hpc]; trivial)) fun es _ => ?_
  simp [Batch.announced, Batch.answered, hpc, toolSteps, Event.tool?]

theorem BatchLaw.respond (h : BatchLaw n calls t b) {k : Nat} {c : ToolCall V} {r : ToolResult V} {p : Bool}
    (hpc : b.pc = .respond k) (hc : b.calls[k]? = some c) (hr : b.results[k]? = some r) :
    BatchLaw n calls (t ++ [.callback (.onToolResponse c r.data r.err) p]) { b with pc := .respond (k + 1) } := by
  have hk : k < calls.length := by
    rw [← h.calls_eq]
    exact (List.getElem?_eq_some_iff.mp hc).1
  have hget : (responses b.calls b.results)[k]? = some (.responded c r.data r.err) := by
    have hzip : (b.calls.zip b.results)[k]? = some (c, r) := List.getElem?_zip_eq_some.mpr ⟨hc, hr⟩
    simp [responses, hzip]
  refine h.caller rfl rfl rfl rfl hk (by rw [hpc]; rfl) (by rw [hpc]; rfl)
    (fun _ => h.joined (by rw [hpc]; trivial)) fun es _ => ?_
  simp [Batch.announced, Batch.answered, hpc, toolSteps, Event.tool?, List.take_add_one, hget]

theorem BatchLaw.responded (h : BatchLaw n calls t b) (hpc : b.pc = .respond b.calls.length) :
    BatchLaw n calls (t ++ []) { b with pc := .send } := by
  have hlen : (responses b.calls b.results).length ≤ b.calls.length := by
    simp only [responses, List.length_map, List.length_zip]
    exact Nat.min_le_left _ _
  refine h.caller rfl rfl rfl rfl trivial (by rw [hpc]; rfl) (by rw [hpc]; rfl)
    (fun _ => h.joined (by rw [hpc]; trivial)) fun es _ => ?_
  simp [Batch.announced, Batch.answered, hpc, toolSteps, List.take_of_length_le hlen]

theorem BatchLaw.sent (h : BatchLaw n calls t b) (hpc : b.pc = .send) {err : Option (Err V)} {pc : BatchPc V}
    (hpc' : pc = .finished ∨ ∃ e, pc = .report e) :
    BatchLaw n calls (t ++ [.sendToolResults b.results err]) { b with pc := pc } := by
  have hover := h.joined (by rw [hpc]; trivial)
  rcases hpc' with rfl | ⟨e, rfl⟩
  · refine h.caller rfl rfl rfl rfl trivial (by rw [hpc]; rfl) (by rw [hpc]; rfl) (fun _ => hover) fun es _ => ?_
    simp [Batch.announced, Batch.answered, hpc, toolSteps, Event.tool?]
  · refine h.caller rfl rfl rfl rfl trivial (by rw [hpc]; rfl) (by rw [hpc]; rfl) (fun _ => hover) fun es _ => ?_
    simp [Batch.announced, Batch.answered, hpc, toolSteps, Event.tool?]

theorem BatchLaw.report (h : BatchLaw n calls t b) {e : Err V} {p : Bool} (hpc : b.pc = .report e) :
    BatchLaw n calls (t ++ [.callback (.onError e) p]) { b with pc := .finished } := by
  refine h.caller rfl rfl rfl rfl trivial (by rw [hpc]; rfl) (by rw [hpc]; rfl)
    (fun _ => h.joined (by rw [hpc]; trivial)) fun es _ => ?_
  simp [Batch.announced, Batch.answered, hpc, toolSteps, Event.tool?]

/-! ## Runs -/

theorem BatchLaw.core (h : BatchLaw n calls t b) (hs : CoreStep n b evs b') : BatchLaw n calls (t ++ evs) b' := by
  cases hs with
  | B_Announce hpc hc => exact h.announce hpc hc
  | B_Watch hpc => exact h.watch hpc
  | B_Add hpc hk => exact h.add hpc hk
  | B_Acquire hpc hsem => exact h.acquire hpc hsem
  | B_Spawned hpc => exact h.spawnedAll hpc
  | B_Wait hpc hwg => exact h.waited hpc hwg
  | B_CloseDone hpc => exact h.closeDone hpc
  | B_CancelHold hpc => exact h.cancelHold hpc
  | B_Clear hpc => exact h.clear hpc
  | B_Respond hpc hc hr => exact h.respond hpc hc hr
  | B_Responded hpc => exact h.responded hpc
  | B_Send hpc => exact h.sent hpc (.inl rfl)
  | B_SendFailed hpc => exact h.sent hpc (.inr ⟨_, rfl⟩)
  | B_Report hpc => exact h.report hpc
  | B_Begin hw => exact h.begin hw
  | B_End o hw => exact h.finish o hw
  | B_Store hw hc => exact h.store hw hc
  | B_Release hw hsem => exact h.release hw hsem
  | B_Done hw => exact h.wgDone hw

theorem HoldStep.toolSteps_eq {d hd : Bool} {h h' : HoldPc} (hs : HoldStep filler d hd h evs h') :
    toolSteps evs = [] := by
  cases hs <;> rfl

/-- The watchdog changes nothing that the calls depend on. -/
theorem BatchLaw.hold {d hd : Bool} {h' : HoldPc} (h : BatchLaw n calls t b)
    (hs : HoldStep filler d hd b.hold evs h') : BatchLaw n calls (t ++ evs) { b with hold := h' } := by
  refine h.caller rfl rfl rfl rfl h.within rfl rfl h.joined fun es _ => ?_
  rw [hs.toolSteps_eq, List.append_nil]
  rfl

theorem BatchLaw.step (h : BatchLaw n calls t b) (hs : BatchStep n filler b evs b') :
    BatchLaw n calls (t ++ evs) b' := by
  cases hs with
  | core hs => exact h.core hs
  | hold runDone hs => exact h.hold hs

theorem BatchLaw.run (hr : Run (BatchStep n filler) (.init calls) t b) : BatchLaw n calls t b :=
  hr.invariant (.init n calls) fun _ _ _ _ h hs => h.step hs

end Gopkg.Voice
