import Gopkg.Voice.Lemmas.Outcome

/-!
# Closing the endpoints

Which calls of `Transport.Close` and `LLM.Close` a trace shows before `OnSessionEnd`.
-/

namespace Gopkg.Voice

open Lts

variable {σ τ V : Type} {P : Config σ τ V} {t evs : List (Event V)} {s s' : State σ τ V}

def Event.isTransportClose : Event V → Bool
  | .transportClose => true
  | _ => false

def Event.isLLMClose : Event V → Bool
  | .llmClose => true
  | _ => false

def Event.isSessionEnd : Event V → Bool
  | .callback (.onSessionEnd _) _ => true
  | _ => false

/-- The calls of `Transport.Close` and of `LLM.Close`. -/
def closes (t : List (Event V)) : Nat × Nat := (t.countP Event.isTransportClose, t.countP Event.isLLMClose)

/-- The part of a trace before `OnSessionEnd`. -/
def beforeEnd (t : List (Event V)) : List (Event V) := t.takeWhile fun ev => !ev.isSessionEnd

/-- Both bridges resolved, and `LLM.Open` returned nil. -/
def SetUp (P : Config σ τ V) (t : List (Event V)) : Prop := (∃ b, P.bridges = .ok b) ∧ .opened none ∈ t

/-- No call that opens or closes an endpoint. -/
def Event.Neutral : Event V → Prop
  | .opened _ | .transportClose | .llmClose => False
  | _ => True

theorem closes_neutral (h : ∀ ev ∈ evs, ev.Neutral) : closes (t ++ evs) = closes t := by
  have h₁ : evs.countP Event.isTransportClose = 0 := by
    rw [List.countP_eq_zero]
    intro ev hev
    have := h ev hev
    cases ev <;> first | exact Bool.false_ne_true | exact this.elim
  have h₂ : evs.countP Event.isLLMClose = 0 := by
    rw [List.countP_eq_zero]
    intro ev hev
    have := h ev hev
    cases ev <;> first | exact Bool.false_ne_true | exact this.elim
  simp only [closes, List.countP_append, h₁, h₂, Nat.add_zero]

theorem opened_neutral (h : ∀ ev ∈ evs, ev.Neutral) : .opened none ∈ t ++ evs ↔ .opened none ∈ t := by
  rw [List.mem_append]
  exact or_iff_left fun hev => h _ hev

theorem setUp_neutral (h : ∀ ev ∈ evs, ev.Neutral) : SetUp P (t ++ evs) ↔ SetUp P t :=
  and_congr_right fun _ => opened_neutral h

theorem not_isSessionEnd (h : NoEnd (callbacks t)) : ∀ ev ∈ t, (!ev.isSessionEnd) = true := by
  intro ev hev
  rw [Bool.not_eq_true', Bool.eq_false_iff]
  intro hend
  cases ev with
  | callback c p =>
      cases c with
      | onSessionEnd r => exact h _ (List.mem_filterMap.mpr ⟨_, hev, rfl⟩) trivial
      | _ => cases hend
  | _ => cases hend

theorem beforeEnd_snoc {r : EndReason} {p : Bool} (h : NoEnd (callbacks t)) :
    beforeEnd (t ++ [.callback (.onSessionEnd r) p]) = t := by
  rw [beforeEnd, List.takeWhile_append_of_pos (not_isSessionEnd h)]
  exact List.append_nil t

theorem beforeEnd_append {cs : List (Callback V)} {r : EndReason} (h : callbacks t = cs ++ [.onSessionEnd r]) :
    beforeEnd (t ++ evs) = beforeEnd t := by
  have hmem : Callback.onSessionEnd r ∈ callbacks t := by rw [h]; exact List.mem_append_right _ List.mem_cons_self
  obtain ⟨ev, hev, hc⟩ := List.mem_filterMap.mp hmem
  have hend : ev.isSessionEnd = true := by
    cases ev with
    | callback c p => cases hc; rfl
    | _ => cases hc
  have hlt : ¬ (t.takeWhile fun ev => !ev.isSessionEnd).length = t.length := by
    intro hlen
    have heq : (t.takeWhile fun ev => !ev.isSessionEnd) = t :=
      (List.takeWhile_prefix _).eq_of_length hlen
    have := List.all_eq_true.mp List.all_takeWhile ev (heq ▸ hev)
    rw [hend] at this
    exact Bool.noConfusion this
  rw [beforeEnd, List.takeWhile_append, if_neg hlt]
  rfl

/-! ## The invariant -/

def ReleaseLaw (P : Config σ τ V) (t : List (Event V)) : MainPc V → Prop
  | .resolving => closes t = (0, 0) ∧ .opened none ∉ t
  | .opening => closes t = (0, 0) ∧ .opened none ∉ t ∧ ∃ b, P.bridges = .ok b
  | .failing _ | .failed _ => closes t = (0, 0) ∧ ¬ SetUp P t
  | .injected | .receiving | .subscribing | .starting | .waiting | .draining | .closingTransport _ _ =>
      closes t = (0, 0) ∧ SetUp P t
  | .closingLLM _ _ => closes t = (1, 0) ∧ SetUp P t
  | .ending _ _ => closes t = (1, 1) ∧ SetUp P t
  | .returned _ => (closes (beforeEnd t) = (1, 1) ∧ SetUp P t) ∨ (closes (beforeEnd t) = (0, 0) ∧ ¬ SetUp P t)

theorem ReleaseLaw.neutral (h : ReleaseLaw P t s.main) (ho : Outcomes t s) (hev : ∀ ev ∈ evs, ev.Neutral) :
    ReleaseLaw P (t ++ evs) s.main := by
  have hm := ho.main
  cases hs : s.main with
  | returned e =>
      rw [hs] at h hm
      obtain ⟨cs, r, hcs, _⟩ := hm
      simp only [ReleaseLaw, beforeEnd_append hcs, setUp_neutral hev]
      exact h
  | resolving | opening | failing _ | failed _ | injected | receiving | subscribing | starting | waiting
  | draining | closingTransport _ _ | closingLLM _ _ | ending _ _ =>
      rw [hs] at h
      simp only [ReleaseLaw, closes_neutral hev, opened_neutral hev, setUp_neutral hev]
      exact h

theorem CoreStep.neutral {n : Nat} {b b' : Batch V} (h : CoreStep n b evs b') : ∀ ev ∈ evs, ev.Neutral := by
  cases h <;> simp [Event.Neutral]

theorem HoldStep.neutral {filler : Filler} {d hd : Bool} {h h' : HoldPc}
    (hs : HoldStep filler d hd h evs h') : ∀ ev ∈ evs, ev.Neutral := by
  cases hs <;> simp [Event.Neutral]

theorem ExitStep.neutral {x x' : Exit V} (h : ExitStep s x evs s' x') :
    (∀ ev ∈ evs, ev.Neutral) ∧ s'.main = s.main := by
  cases h <;> simp [Event.Neutral, State.recordEnd, State.cancel]

theorem AudioStep.neutral (h : AudioStep P s evs s') : (∀ ev ∈ evs, ev.Neutral) ∧ s'.main = s.main := by
  cases h with
  | A_Exit _ hx => exact hx.neutral
  | A_Frame _ _ _ | A_Closed _ _ | A_Error _ _ | A_NoError _ _ _ | A_Send _ _ => simp [Event.Neutral]

theorem EventsStep.neutral (h : EventsStep P s evs s') : (∀ ev ∈ evs, ev.Neutral) ∧ s'.main = s.main := by
  cases h with
  | E_Exit _ hx => exact hx.neutral
  | E_Batch _ hb => exact ⟨hb.neutral, rfl⟩
  | @E_Act a => cases a <;> simp [Event.Neutral, Action.shows]
  | E_Event _ _ _ | E_Closed _ _ | E_Error _ _ | E_NoError _ _ _ | E_Send _ _ | E_Acted _ | E_Finish _ _ =>
      simp [Event.Neutral]

theorem FillerStep.neutral (h : FillerStep P s evs s') : (∀ ev ∈ evs, ev.Neutral) ∧ s'.main = s.main := by
  cases h with
  | F_Batch _ hh => exact ⟨hh.neutral, rfl⟩
  | F_Over _ _ _ hh => exact ⟨hh.neutral, rfl⟩

theorem AdapterStep.neutral (h : AdapterStep P s evs s') : (∀ ev ∈ evs, ev.Neutral) ∧ s'.main = s.main := by
  cases h with
  | @T_Tick _ e _ => cases e <;> simp [Event.Neutral]
  | @L_Tick _ e _ => cases e <;> simp [Event.Neutral]

theorem EnvStep.neutral (h : EnvStep P s evs s') : (∀ ev ∈ evs, ev.Neutral) ∧ s'.main = s.main := by
  cases h <;> simp [Event.Neutral]

/-- The caller of `Run` calls no `Close` before both goroutines are gone, and each once after that. -/
theorem ReleaseLaw.mainStep (h : ReleaseLaw P t s.main) (ho : Outcomes t s) (hs : MainStep P s evs s') :
    ReleaseLaw P (t ++ evs) s'.main := by
  have hm := ho.main
  cases hs with
  | M_Resolved hp hb =>
      rw [hp] at h
      rw [List.append_nil]
      exact ⟨h.1, h.2, _, hb⟩
  | M_Unresolved hp hb =>
      rw [hp] at h
      refine ⟨(closes_neutral (by simp [Event.Neutral])).trans h.1, ?_⟩
      rintro ⟨⟨b, hok⟩, _⟩
      exact nomatch hb.symm.trans hok
  | M_Fail hp =>
      rw [hp] at h
      exact ⟨(closes_neutral (by simp [Event.Neutral])).trans h.1,
        fun hu => h.2 ((setUp_neutral (by simp [Event.Neutral])).mp hu)⟩
  | M_Failed hp =>
      rw [hp] at h hm
      refine .inr ⟨?_, fun hu => h.2 ((setUp_neutral (by simp [Event.Neutral])).mp hu)⟩
      rw [beforeEnd_snoc hm.2.1]
      exact h.1
  | M_Open hp _ =>
      rw [hp] at h
      rw [List.append_nil]
      simpa only [hp] using h
  | M_Opened hp _ =>
      rw [hp] at h
      refine ⟨?_, h.2.2, by simp⟩
      simpa [closes, Event.isTransportClose, Event.isLLMClose] using h.1
  | M_OpenFailed hp _ =>
      rw [hp] at h
      refine ⟨?_, ?_⟩
      · simpa [closes, Event.isTransportClose, Event.isLLMClose] using h.1
      · rintro ⟨_, hmem⟩
        simp only [List.mem_append, List.mem_singleton, Event.opened.injEq, reduceCtorEq, or_false] at hmem
        exact h.2.1 hmem
  | M_Injected hp | M_Start hp =>
      rw [hp] at h
      exact ⟨(closes_neutral (by simp [Event.Neutral])).trans h.1,
        (setUp_neutral (by simp [Event.Neutral])).mpr h.2⟩
  | M_Receive hp | M_Events hp | M_Done hp _ _ | M_ContextDone hp _ | M_Drained hp _ _ =>
      rw [hp] at h
      rw [List.append_nil]
      exact h
  | M_CloseTransport hp | M_CloseLLM hp =>
      rw [hp] at h
      obtain ⟨hc, hb, ho⟩ := h
      rw [closes, Prod.mk.injEq] at hc
      refine ⟨?_, hb, List.mem_append_left _ ho⟩
      simp [closes, List.countP_append, hc.1, hc.2, Event.isTransportClose, Event.isLLMClose]
  | M_End hp =>
      rw [hp] at h hm
      refine .inl ⟨?_, (setUp_neutral (by simp [Event.Neutral])).mpr h.2⟩
      rw [beforeEnd_snoc hm.2]
      exact h.1

theorem ReleaseLaw.step (h : ReleaseLaw P t s.main) (ho : Outcomes t s) (hs : Step P s evs s') :
    ReleaseLaw P (t ++ evs) s'.main := by
  have hneutral : (∀ ev ∈ evs, ev.Neutral) ∧ s'.main = s.main → ReleaseLaw P (t ++ evs) s'.main := by
    rintro ⟨hev, hmain⟩
    rw [hmain]
    exact h.neutral ho hev
  cases hs with
  | main hs => exact h.mainStep ho hs
  | audio hs => exact hneutral hs.neutral
  | events hs => exact hneutral hs.neutral
  | filler hs => exact hneutral hs.neutral
  | adapter hs => exact hneutral hs.neutral
  | env hs => exact hneutral hs.neutral

theorem ReleaseLaw.run {x : σ} {l : τ} (hr : Run (Step P) (State.init x l) t s) : ReleaseLaw P t s.main := by
  refine (hr.invariant (I := fun t s => Outcomes t s ∧ ReleaseLaw P t s.main) ?_ ?_).2
  · exact ⟨.init x l, rfl, by simp⟩
  · intro t s evs s' h hs
    exact ⟨h.1.step hs, h.2.step h.1 hs⟩

end Gopkg.Voice
