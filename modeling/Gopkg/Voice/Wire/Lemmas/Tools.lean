import Gopkg.Voice.Lemmas.Dispatch

/-!
# The tool batches of a session

The batches are served one after the other, in the order of the events.
-/

namespace Gopkg.Voice.Wire

open Lts

variable {σ τ V : Type} {P : Config σ τ V} {t evs : List (Event V)} {s s' : State σ τ V}

def calls? : LLMEvent V → Option (List (ToolCall V))
  | .toolCalls calls => some calls
  | _ => none

/-- The batches of calls among the events. -/
def called (evs : List (LLMEvent V)) : List (List (ToolCall V)) := evs.filterMap calls?

/-- A batch with the ends of its executions, and with the results that were sent for it. -/
structure Reply (V : Type) where
  calls : List (ToolCall V)
  outcomes : List (Outcome V)
  results : List (ToolResult V)

/-- Batches that are served, each before the next one. -/
inductive Answered : List (Reply V) → List (ToolStep V) → Prop
  | nil : Answered [] []
  | snoc {served : List (Reply V)} {steps steps' : List (ToolStep V)} {p : Reply V} : Answered served steps →
      Served p.calls p.outcomes p.results steps' → Answered (served ++ [p]) (steps ++ steps')

theorem called_append (evs evs' : List (LLMEvent V)) : called (evs ++ evs') = called evs ++ called evs' :=
  List.filterMap_append

/-! ## The invariant -/

/-- Not in a batch, and about to do nothing that shows a step of one. -/
def Beside : EventsPc V → Prop
  | .batch _ => False
  | .acting as => ∀ a ∈ as, ∀ p, (a.shows p).tool? = none
  | _ => True

/-- The batches so far are served, except for the one in hand. -/
def ToolsLaw (P : Config σ τ V) (t : List (Event V)) (s : State σ τ V) : Prop :=
  (Beside s.events ∧ ∃ served, called (received t) = served.map (·.calls) ∧ Answered served (toolSteps t)) ∨
    ∃ bt served before calls tb, s.events = .batch bt ∧ called (received t) = served.map (·.calls) ++ [calls] ∧
      toolSteps t = before ++ toolSteps tb ∧ Answered served before ∧
      Run (BatchStep P.toolConcurrency P.filler) (.init calls) tb bt

/-- A step that keeps the goroutine where it is. -/
theorem ToolsLaw.still (h : ToolsLaw P t s) (hsteps : toolSteps evs = []) (hreceived : received evs = [])
    (he : s'.events = s.events) : ToolsLaw P (t ++ evs) s' := by
  rw [ToolsLaw, received_append, hreceived, List.append_nil, toolSteps_append, hsteps, List.append_nil, he]
  exact h

/-- From one place beside the batches to another. -/
theorem ToolsLaw.beside (h : ToolsLaw P t s) (hsteps : toolSteps evs = []) (hreceived : called (received evs) = [])
    (hbefore : ∀ bt, s.events ≠ .batch bt) (hafter : Beside s'.events) : ToolsLaw P (t ++ evs) s' := by
  rcases h with ⟨_, served, hcalled, hserved⟩ | ⟨bt, _, _, _, _, he, _⟩
  · refine .inl ⟨hafter, served, ?_, ?_⟩
    · rw [received_append, called_append, hreceived, List.append_nil]
      exact hcalled
    · rw [toolSteps_append, hsteps, List.append_nil]
      exact hserved
  · exact absurd he (hbefore bt)

theorem ToolsLaw.moved {bt bt' : Batch V} (h : ToolsLaw P t s) (he : s.events = .batch bt)
    (he' : s'.events = .batch bt') (hreceived : received evs = [])
    (hstep : BatchStep P.toolConcurrency P.filler bt evs bt') : ToolsLaw P (t ++ evs) s' := by
  rcases h with ⟨hbeside, _⟩ | ⟨_, served, before, calls, tb, he₀, hcalled, hsteps, hserved, hrun⟩
  · rw [he] at hbeside
    exact hbeside.elim
  · cases he₀.symm.trans he
    refine .inr ⟨bt', served, before, calls, tb ++ evs, he', ?_, ?_, hserved, hrun.snoc hstep⟩
    · rw [received_append, hreceived, List.append_nil]
      exact hcalled
    · rw [toolSteps_append, toolSteps_append, hsteps, List.append_assoc]

/-! ## Steps -/

theorem ExitStep.toolSteps_eq {x x' : Exit V} (h : ExitStep s x evs s' x') :
    toolSteps evs = [] ∧ received evs = [] ∧ s'.events = s.events := by
  cases h <;> exact ⟨rfl, rfl, rfl⟩

theorem HoldStep.received_eq {filler : Filler} {d hd : Bool} {h h' : HoldPc} (hs : HoldStep filler d hd h evs h') :
    received evs = [] := by
  cases hs <;> rfl

/-- The event of a tool batch begins one, and any other leaves the goroutine beside them. -/
theorem ToolsLaw.receive {b : Bridge} {n : Int} (h : ToolsLaw P t s) (he : s.events = .select) (ev : LLMEvent V)
    (he' : s'.events = dispatch b n ev) : ToolsLaw P (t ++ [.received ev]) s' := by
  have hselect : ∀ bt, s.events ≠ .batch bt := by simp [he]
  cases ev with
  | toolCalls calls =>
      rcases h with ⟨_, served, hcalled, hserved⟩ | ⟨bt, _, _, _, _, hbatch, _⟩
      · refine .inr ⟨.init calls, served, toolSteps t, calls, [], he', ?_, ?_, hserved, .refl⟩
        · rw [received_append, called_append, hcalled]
          rfl
        · rw [toolSteps_append]
          rfl
      · exact absurd hbatch (hselect bt)
  | audioOut f =>
      refine h.beside rfl rfl hselect ?_
      rw [he', dispatch]
      cases b.convert f (V := V) <;> trivial
  | assistantText _ _ | callerTranscript _ | turnComplete | interrupted =>
      refine h.beside rfl rfl hselect ?_
      rw [he']
      simp [Beside, dispatch, Action.shows, Event.tool?]

theorem ToolsLaw.eventsStep (h : ToolsLaw P t s) (hs : EventsStep P s evs s') : ToolsLaw P (t ++ evs) s' := by
  cases hs with
  | E_Event he _ _ => exact h.receive he _ rfl
  | E_Batch he hc => exact h.moved he rfl hc.received_eq (.core hc)
  | @E_Act a as p he =>
      rcases h with ⟨hbeside, _⟩ | ⟨_, _, _, _, _, hbatch, _⟩
      · rw [he] at hbeside
        obtain ⟨ha, has⟩ := List.forall_mem_cons.mp hbeside
        refine ToolsLaw.beside (.inl ⟨by rw [he]; exact hbeside, ‹_›⟩) ?_ ?_ (by simp [he]) has
        · simp [toolSteps, ha p]
        · rw [received_shows]; rfl
      · rw [he] at hbatch
        cases hbatch
  | @E_Finish bt he hfin =>
      rcases h with ⟨hbeside, _⟩ | ⟨_, served, before, calls, tb, he₀, hcalled, hsteps, hserved, hrun⟩
      · rw [he] at hbeside
        exact hbeside.elim
      · cases he₀.symm.trans he
        obtain ⟨outcomes, hlast⟩ := (BatchLaw.run hrun).served hfin
        refine .inl ⟨trivial, served ++ [⟨calls, outcomes, bt.results⟩], ?_, ?_⟩
        · rw [List.append_nil, hcalled, List.map_append]
          rfl
        · rw [List.append_nil, hsteps]
          exact hserved.snoc hlast
  | E_Exit he hx =>
      obtain ⟨hsteps, hreceived, _⟩ := ExitStep.toolSteps_eq hx
      exact h.beside hsteps (by rw [hreceived]; rfl) (by simp [he]) trivial
  | E_NoError _ _ _ => exact h.still rfl rfl rfl
  | @E_Send f err he =>
      refine h.beside rfl rfl (by simp [he]) ?_
      cases err <;> trivial
  | E_Closed he _ | E_Error he _ | E_Acted he => exact h.beside rfl rfl (by simp [he]) trivial

theorem ToolsLaw.mainStep (h : ToolsLaw P t s) (ho : Outcomes t s) (hs : MainStep P s evs s') :
    ToolsLaw P (t ++ evs) s' := by
  cases hs with
  | M_Start hm => exact h.beside rfl rfl (by simp [ho.unstarted hm]) trivial
  | M_Resolved _ _ | M_Unresolved _ _ | M_Fail _ | M_Failed _ | M_Open _ _ | M_Opened _ _ | M_OpenFailed _ _
  | M_Injected _ | M_Receive _ | M_Events _ | M_Done _ _ _ | M_ContextDone _ _ | M_Drained _ _ _
  | M_CloseTransport _ | M_CloseLLM _ | M_End _ => exact h.still rfl rfl rfl

theorem ToolsLaw.step (h : ToolsLaw P t s) (ho : Outcomes t s) (hs : Step P s evs s') : ToolsLaw P (t ++ evs) s' := by
  cases hs with
  | main hs => exact h.mainStep ho hs
  | events hs => exact h.eventsStep hs
  | audio hs =>
      cases hs with
      | A_Exit _ hx =>
          obtain ⟨hsteps, hreceived, he⟩ := ExitStep.toolSteps_eq hx
          exact h.still hsteps hreceived he
      | A_Frame _ _ _ | A_Closed _ _ | A_Error _ _ | A_NoError _ _ _ | A_Send _ _ => exact h.still rfl rfl rfl
  | filler hs =>
      cases hs with
      | F_Batch he hh => exact h.moved he rfl (HoldStep.received_eq hh) (.hold s.done hh)
      | F_Over _ _ _ hh => exact h.still hh.toolSteps_eq (HoldStep.received_eq hh) rfl
  | adapter hs =>
      cases hs with
      | @T_Tick _ e _ | @L_Tick _ e _ => cases e <;> exact h.still rfl rfl rfl
  | env hs => cases hs <;> exact h.still rfl rfl rfl

theorem ToolsLaw.run {x : σ} {l : τ} (hr : Run (Step P) (State.init x l) t s) : ToolsLaw P t s := by
  refine (hr.invariant (I := fun t s => Outcomes t s ∧ ToolsLaw P t s) ?_ ?_).2
  · exact ⟨.init x l, .inl ⟨trivial, [], rfl, .nil⟩⟩
  · intro t s evs s' h hs
    exact ⟨h.1.step hs, h.2.step h.1 hs⟩

/-! ## What was sent -/

def sent? : ToolStep V → Option (List (ToolResult V))
  | .sent results => some results
  | _ => none

/-- The results that were sent. -/
def sent (steps : List (ToolStep V)) : List (List (ToolResult V)) := steps.filterMap sent?

theorem sent_append (steps steps' : List (ToolStep V)) : sent (steps ++ steps') = sent steps ++ sent steps' :=
  List.filterMap_append

theorem sent_called (calls : List (ToolCall V)) : sent (calls.map .called) = [] := by
  simp [sent, sent?]

theorem sent_execute {es : List (ToolStep V)} (h : ∀ e ∈ es, e.isExecute = true) : sent es = [] := by
  refine List.filterMap_eq_nil_iff.mpr fun e he => ?_
  have hexec := h e he
  cases e with
  | begun _ | ended _ _ => rfl
  | called _ | responded _ _ _ | sent _ => cases hexec

theorem sent_responses (calls : List (ToolCall V)) (results : List (ToolResult V)) :
    sent (responses calls results) = [] := by
  simp [sent, sent?, responses]

theorem Served.sent_eq {calls : List (ToolCall V)} {outcomes : List (Outcome V)} {results : List (ToolResult V)}
    {steps : List (ToolStep V)} (h : Served calls outcomes results steps) : sent steps = [results] := by
  obtain ⟨es, rfl, hexec, -⟩ := h.steps_eq
  rw [sent_append, sent_append, sent_append, sent_called, sent_execute hexec, sent_responses]
  rfl

theorem Answered.sent_eq {served : List (Reply V)} {steps : List (ToolStep V)} (h : Answered served steps) :
    sent steps = served.map (·.results) := by
  induction h with
  | nil => rfl
  | snoc _ hserved ih =>
      rw [sent_append, ih, Served.sent_eq hserved, List.map_append]
      rfl

theorem Answered.served {served : List (Reply V)} {steps : List (ToolStep V)} (h : Answered served steps) :
    ∀ p ∈ served, ∃ steps', Served p.calls p.outcomes p.results steps' := by
  induction h with
  | nil => nofun
  | snoc _ hserved ih =>
      refine List.forall_mem_append.mpr ⟨ih, ?_⟩
      rintro p (_ | ⟨_, ⟨⟩⟩)
      exact ⟨_, hserved⟩

/-- A batch has sent its results once, at its end. -/
theorem sent_batch {n : Nat} {filler : Filler} {calls : List (ToolCall V)} {bt : Batch V}
    (hrun : Run (BatchStep n filler) (.init calls) t bt) :
    sent (toolSteps t) = [] ∨ ∃ outcomes results, Served calls outcomes results (toolSteps t) := by
  have hlaw := BatchLaw.run hrun
  have hsent : bt.pc ≠ .finished → (∀ e, bt.pc ≠ .report e) → sent (toolSteps t) = [] := by
    intro hfin hreport
    obtain ⟨es, hsteps, hexec, -⟩ := hlaw.shown
    have hannounced : sent bt.announced = [] := by
      unfold Batch.announced
      split <;> exact sent_called _
    have hanswered : sent bt.answered = [] := by
      unfold Batch.answered
      split
      next =>
        rw [sent, List.filterMap_eq_nil_iff]
        intro e he
        exact List.filterMap_eq_nil_iff.mp (sent_responses _ _) e (List.mem_of_mem_take he)
      next => exact sent_responses _ _
      next h => exact absurd h (hreport _)
      next h => exact absurd h hfin
      next => rfl
    rw [hsteps, sent_append, sent_append, hannounced, sent_execute hexec, hanswered]
    rfl
  cases hpc : bt.pc with
  | finished =>
      obtain ⟨outcomes, hserved⟩ := hlaw.served hpc
      exact .inr ⟨outcomes, _, hserved⟩
  | report e =>
      -- the error of `SendToolResults` is reported next
      have hend := hrun.snoc (.core (.B_Report (p := false) hpc))
      obtain ⟨outcomes, hserved⟩ := (BatchLaw.run hend).served rfl
      rw [toolSteps_append, show toolSteps [Event.callback (.onError e) false] = [] from rfl,
        List.append_nil] at hserved
      exact .inr ⟨outcomes, _, hserved⟩
  | announce _ | add _ | acquire _ | wait | closeDone | cancelHold | clear | respond _ | send =>
      refine .inl (hsent ?_ ?_)
      · rw [hpc]; nofun
      · rw [hpc]; nofun

/-- The batches that have sent their results are served, in order; only the last batch can be missing. -/
theorem ToolsLaw.answered (h : ToolsLaw P t s) : ∃ served before rest,
    served.map (·.calls) <+: called (received t) ∧ toolSteps t = before ++ rest ∧ Answered served before ∧
      sent rest = [] ∧ ((∀ bt, s.events ≠ .batch bt) → called (received t) = served.map (·.calls)) := by
  rcases h with ⟨_, served, hcalled, hserved⟩ | ⟨bt, served, before, calls, tb, he, hcalled, hsteps, hserved, hrun⟩
  · exact ⟨served, _, [], hcalled ▸ List.prefix_refl _, (List.append_nil _).symm, hserved, rfl, fun _ => hcalled⟩
  · rcases sent_batch hrun with hnone | ⟨outcomes, results, hlast⟩
    · exact ⟨served, before, _, hcalled ▸ List.prefix_append _ _, hsteps, hserved, hnone, fun hn => absurd he (hn bt)⟩
    · refine ⟨served ++ [⟨calls, outcomes, results⟩], _, [], ?_, hsteps.trans (List.append_nil _).symm,
        hserved.snoc hlast, rfl, fun hn => absurd he (hn bt)⟩
      rw [hcalled, List.map_append]
      exact List.prefix_refl _

end Gopkg.Voice.Wire
