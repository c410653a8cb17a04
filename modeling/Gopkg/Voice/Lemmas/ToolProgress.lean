import Gopkg.Voice.Lemmas.ToolBatch

/-!
# The end of a tool batch

A batch that is not over can move, whatever the watchdog does, and every step of the calling goroutine and
of the workers brings it nearer to its end.
-/

namespace Gopkg.Voice

open Lts

variable {V : Type} {n : Nat} {calls : List (ToolCall V)} {t evs : List (Event V)} {b b' : Batch V}
  {filler : Filler}

/-! ## Progress -/

theorem BatchLaw.worker_moves (h : BatchLaw n calls t b) {i : Nat} {w : WorkerPc V}
    (hw : b.workers[i]? = some w) (hne : w ≠ .gone) : ∃ evs b', CoreStep n b evs b' := by
  cases w with
  | ready => exact ⟨_, _, .B_Begin hw⟩
  | executing => exact ⟨_, _, .B_End (.returned none none) hw⟩
  | storing o =>
      have hover := h.not_over hw hne
      have hi : i < b.calls.length := by
        have hlt := (List.getElem?_eq_some_iff.mp hw).1
        have hwithin := h.within
        rw [h.spawned] at hlt
        rw [h.calls_eq]
        cases hpc : b.pc <;> simp only [hpc, BatchPc.spawned, BatchPc.Within] at hlt hwithin <;> omega
      exact ⟨_, _, .B_Store hw (List.getElem?_eq_getElem hi)⟩
  | releasing =>
      have hsem : 0 < b.sem := by
        rw [h.sem]
        exact le_total (f := WorkerPc.token) hw
      exact ⟨_, _, .B_Release hw hsem⟩
  | finishing => exact ⟨_, _, .B_Done hw⟩
  | gone => exact absurd rfl hne

theorem BatchLaw.progress (h : BatchLaw n calls t b) (hn : 0 < n) (hpc : b.pc ≠ .finished) :
    ∃ evs b', CoreStep n b evs b' := by
  have hwithin := h.within
  rw [← h.calls_eq] at hwithin
  cases hs : b.pc with
  | announce k =>
      rw [hs] at hwithin
      rcases Nat.lt_or_eq_of_le hwithin with hk | rfl
      · exact ⟨_, _, .B_Announce (p := false) hs (List.getElem?_eq_getElem hk)⟩
      · exact ⟨_, _, .B_Watch hs⟩
  | add k =>
      rw [hs] at hwithin
      rcases Nat.lt_or_eq_of_le hwithin with hk | rfl
      · exact ⟨_, _, .B_Add hs hk⟩
      · exact ⟨_, _, .B_Spawned hs⟩
  | acquire k =>
      by_cases hsem : b.sem < n
      · exact ⟨_, _, .B_Acquire hs hsem⟩
      · -- the semaphore is full, and a worker that holds a token can move
        have hpos : 0 < total WorkerPc.token b.workers := by
          rw [← h.sem]
          omega
        obtain ⟨i, w, hw, htoken⟩ := exists_of_total_pos hpos
        exact h.worker_moves hw fun hg => by rw [hg] at htoken; exact absurd htoken (Nat.lt_irrefl _)
  | wait =>
      by_cases hwg : b.wg = 0
      · exact ⟨_, _, .B_Wait hs hwg⟩
      · have hpos : 0 < total WorkerPc.alive b.workers := by
          have := h.wg
          rw [hs] at this
          simp only [BatchPc.added] at this
          omega
        obtain ⟨i, w, hw, halive⟩ := exists_of_total_pos hpos
        exact h.worker_moves hw fun hg => by rw [hg] at halive; exact absurd halive (Nat.lt_irrefl _)
  | closeDone => exact ⟨_, _, .B_CloseDone hs⟩
  | cancelHold => exact ⟨_, _, .B_CancelHold hs⟩
  | clear => exact ⟨_, _, .B_Clear hs⟩
  | respond k =>
      rw [hs] at hwithin
      rcases Nat.lt_or_eq_of_le hwithin with hk | rfl
      · have hk' : k < b.results.length := by
          rw [h.results_length, ← h.calls_eq]
          exact hk
        exact ⟨_, _, .B_Respond (p := false) hs (List.getElem?_eq_getElem hk) (List.getElem?_eq_getElem hk')⟩
      · exact ⟨_, _, .B_Responded hs⟩
  | send => exact ⟨_, _, .B_Send hs⟩
  | report e => exact ⟨_, _, .B_Report (p := false) hs⟩
  | finished => exact absurd hs hpc

/-! ## Steps that are left -/

def WorkerPc.left : WorkerPc V → Nat
  | .ready => 5
  | .executing => 4
  | .storing _ => 3
  | .releasing => 2
  | .finishing => 1
  | .gone => 0

/-- An upper bound of the steps that the calling goroutine and the workers it has yet to start can take in a
batch of `n` calls. -/
def BatchPc.left (n : Nat) : BatchPc V → Nat
  | .announce k => (n - k) + 9 * n + 20
  | .add k => 8 * (n - k) + n + 10
  | .acquire k => 8 * (n - k) + n + 9
  | .wait => n + 9
  | .closeDone => n + 8
  | .cancelHold => n + 7
  | .clear => n + 6
  | .respond k => (n - k) + 5
  | .send => 3
  | .report _ => 1
  | .finished => 0

def Batch.left (b : Batch V) : Nat := b.pc.left b.calls.length + total WorkerPc.left b.workers

theorem left_setWorker {i : Nat} {w w' : WorkerPc V} (hw : b.workers[i]? = some w) (hlt : w'.left < w.left) :
    (b.setWorker i w').left < b.left := by
  have hset := total_set (f := WorkerPc.left) (b := w') hw
  simp only [Batch.left, Batch.setWorker]
  omega

theorem CoreStep.left_lt (hwithin : b.pc.Within b.calls.length) (hs : CoreStep n b evs b') :
    b'.left < b.left := by
  cases hs with
  | B_Announce hpc hc =>
      have hk := (List.getElem?_eq_some_iff.mp hc).1
      simp only [Batch.left, hpc, BatchPc.left]
      omega
  | B_Acquire hpc _ =>
      rw [hpc] at hwithin
      simp only [BatchPc.Within] at hwithin
      simp only [Batch.left, hpc, BatchPc.left, total_snoc, WorkerPc.left]
      omega
  | B_Respond hpc hc _ =>
      have hk := (List.getElem?_eq_some_iff.mp hc).1
      simp only [Batch.left, hpc, BatchPc.left]
      omega
  | B_Watch hpc | B_Add hpc _ | B_Spawned hpc | B_Wait hpc _ | B_CloseDone hpc | B_CancelHold hpc
  | B_Clear hpc | B_Responded hpc | B_Send hpc | B_SendFailed hpc | B_Report hpc =>
      simp only [Batch.left, hpc, BatchPc.left]
      omega
  | B_Begin hw => exact left_setWorker hw (Nat.lt_succ_self _)
  | B_End _ hw => exact left_setWorker hw (Nat.lt_succ_self _)
  | B_Store hw _ => exact left_setWorker hw (Nat.lt_succ_self _)
  | B_Release hw _ => exact left_setWorker hw (Nat.lt_succ_self _)
  | B_Done hw => exact left_setWorker hw (Nat.lt_succ_self _)

/-- The calling goroutine and the workers can always bring the batch to its end. -/
theorem BatchLaw.can_finish (h : BatchLaw n calls t b) (hn : 0 < n) :
    ∃ t' b', Run (CoreStep n) b t' b' ∧ b'.pc = .finished := by
  induction hm : b.left using Nat.strongRecOn generalizing t b with
  | ind m ih =>
      by_cases hpc : b.pc = .finished
      · exact ⟨[], b, .refl, hpc⟩
      · obtain ⟨evs, b₁, hs⟩ := h.progress hn hpc
        have hlt := hs.left_lt (by rw [h.calls_eq]; exact h.within)
        obtain ⟨t', b', hr, hfin⟩ := ih b₁.left (hm ▸ hlt) (h.core hs) rfl
        exact ⟨evs ++ t', b', .cons hs hr, hfin⟩

/-! ## What a finished batch has done -/

/-- The result has the ID of the call and what its execution came to; for a panic, an error that says so. -/
structure Carries (c : ToolCall V) (o : Outcome V) (r : ToolResult V) : Prop where
  callID : r.callID = c.id
  returned : ∀ data err, o = .returned data err → r.data = data ∧ r.err = err
  panicked : ∀ v, o = .panicked v → r.data = none ∧ r.err = some (.toolExecutorPanicked v)

theorem carries_toolResult (c : ToolCall V) (o : Outcome V) : Carries c o (toolResult c o) := by
  cases o with
  | returned data err => exact ⟨rfl, by rintro _ _ ⟨⟩; exact ⟨rfl, rfl⟩, nofun⟩
  | panicked v => exact ⟨rfl, nofun, by rintro _ ⟨⟩; exact ⟨rfl, rfl⟩⟩

/-- The tool calls of a finished batch: `OnToolCall` for every call in order, then the `Execute` calls, each
once, then `OnToolResponse` for every call in order, then one `SendToolResults`; `outcomes` are the ends of the
`Execute` calls, and each result carries that of its call. -/
structure Served (calls : List (ToolCall V)) (outcomes : List (Outcome V)) (results : List (ToolResult V))
    (steps : List (ToolStep V)) : Prop where
  length_eq : outcomes.length = calls.length
  results_length : results.length = calls.length
  carries : ∀ (i : Nat) c o r, calls[i]? = some c → outcomes[i]? = some o → results[i]? = some r → Carries c o r
  steps_eq : ∃ es, steps = calls.map .called ++ es ++ responses calls results ++ [.sent results] ∧
    (∀ e ∈ es, e.isExecute = true) ∧
    ∀ i, es.filter (ToolStep.isOf i) = (outcomes[i]?.map fun o => [.begun i, .ended i o]).getD []

theorem BatchLaw.served (h : BatchLaw n calls t b) (hpc : b.pc = .finished) :
    ∃ outcomes, Served calls outcomes b.results (toolSteps t) := by
  obtain ⟨es, hsteps, hexec, hshown⟩ := h.shown
  have hlen : b.workers.length = calls.length := by
    rw [h.spawned, hpc]
    rfl
  have hgone : ∀ i, i < calls.length → b.workers[i]? = some .gone := by
    intro i hi
    have hget := List.getElem?_eq_getElem (hlen ▸ hi : i < b.workers.length)
    rw [hget, h.joined (by rw [hpc]; trivial) _ (List.getElem_mem _)]
  -- every worker left the outcome of its call in its slot
  have hone : ∀ i : Fin calls.length, ∃ o, es.filter (ToolStep.isOf i.1) = [.begun i.1, .ended i.1 o] ∧
      b.results[i.1]? = some (toolResult calls[i.1] o) := by
    intro i
    have hi := hshown i.1
    simp only [Batch.Shown, hgone i.1 i.2, h.calls_eq, List.getElem?_eq_getElem i.2, Option.some.injEq] at hi
    obtain ⟨o, c, hes, rfl, hr⟩ := hi
    exact ⟨o, hes, hr⟩
  obtain ⟨f, hf⟩ := Classical.axiomOfChoice hone
  refine ⟨List.ofFn f, List.length_ofFn, h.results_length, fun i c o r hc ho hr => ?_, es, ?_, hexec, fun i => ?_⟩
  · obtain ⟨hi, rfl⟩ := List.getElem?_eq_some_iff.mp hc
    rw [(hf ⟨i, hi⟩).2] at hr
    cases hr
    simp only [List.getElem?_ofFn, hi, dite_true, Option.some.injEq] at ho
    cases ho
    exact carries_toolResult _ _
  · rw [hsteps]
    simp [Batch.announced, Batch.answered, hpc, h.calls_eq]
  · by_cases hi : i < calls.length
    · rw [(hf ⟨i, hi⟩).1]
      simp [hi]
    · have hnone := hshown i
      simp only [Batch.Shown, List.getElem?_eq_none (by omega : b.workers.length ≤ i)] at hnone
      simp [hnone, hi]

/-- The `Execute` calls in progress are at most as many as the semaphore has tokens. -/
theorem BatchLaw.running_le (h : BatchLaw n calls t b) : total WorkerPc.running b.workers ≤ n := by
  refine Nat.le_trans (total_mono (g := WorkerPc.token) fun w _ => ?_) (h.sem ▸ h.bound)
  cases w <;> simp [WorkerPc.running, WorkerPc.token]

/-! ## The calls in progress -/

def ToolStep.isBegun : ToolStep V → Bool
  | .begun _ => true
  | _ => false

def ToolStep.isEnded : ToolStep V → Bool
  | .ended _ _ => true
  | _ => false

/-- The `Execute` calls of a trace that have begun, and those that have ended. -/
def begun (t : List (Event V)) : Nat := (toolSteps t).countP ToolStep.isBegun

def ended (t : List (Event V)) : Nat := (toolSteps t).countP ToolStep.isEnded

/-- The calls in progress are those of the workers in `Execute`. -/
def Counted (t : List (Event V)) (b : Batch V) : Prop := begun t = ended t + total WorkerPc.running b.workers

theorem begun_append (t evs : List (Event V)) : begun (t ++ evs) = begun t + begun evs := by
  rw [begun, toolSteps_append, List.countP_append]
  rfl

theorem ended_append (t evs : List (Event V)) : ended (t ++ evs) = ended t + ended evs := by
  rw [ended, toolSteps_append, List.countP_append]
  rfl

theorem Counted.worker (h : Counted t b) {i : Nat} {w w' : WorkerPc V} (hw : b.workers[i]? = some w)
    (hb : b'.workers = b.workers.set i w')
    (hstep : begun evs + w.running = ended evs + w'.running) : Counted (t ++ evs) b' := by
  have hset := total_set (f := WorkerPc.running) (b := w') hw
  rw [Counted] at h ⊢
  rw [begun_append, ended_append, hb]
  omega

theorem Counted.core (h : Counted t b) (hs : CoreStep n b evs b') : Counted (t ++ evs) b' := by
  have hsame : b'.workers = b.workers → begun evs = 0 → ended evs = 0 → Counted (t ++ evs) b' := by
    intro hw hbegun hended
    rw [Counted, begun_append, ended_append, hbegun, hended, hw]
    exact h
  cases hs with
  | B_Begin hw => exact h.worker hw rfl rfl
  | B_End o hw => exact h.worker hw rfl rfl
  | B_Store hw _ => exact h.worker hw rfl rfl
  | B_Release hw _ => exact h.worker hw rfl rfl
  | B_Done hw => exact h.worker hw rfl rfl
  | B_Acquire _ _ =>
      rw [Counted, begun_append, ended_append, total_snoc]
      exact h
  | B_Announce _ _ | B_Watch _ | B_Add _ _ | B_Spawned _ | B_Wait _ _ | B_CloseDone _ | B_CancelHold _
  | B_Clear _ | B_Respond _ _ _ | B_Responded _ | B_Send _ | B_SendFailed _ | B_Report _ =>
      exact hsame rfl rfl rfl

theorem Counted.run (hr : Run (BatchStep n filler) (.init calls) t b) : Counted t b := by
  refine hr.invariant (I := Counted) rfl ?_
  intro t b evs b' h hs
  cases hs with
  | core hs => exact h.core hs
  | hold _ hs =>
      have hnone := hs.toolSteps_eq
      rw [Counted, begun_append, ended_append, begun, begun, ended, ended, hnone]
      exact h

end Gopkg.Voice
