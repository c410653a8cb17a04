import Gopkg.Voice.Lemmas.Release

/-!
# The hold filler after its batch

When the watchdog of a batch, or its pump, can still send a frame of the filler.
-/

namespace Gopkg.Voice

open Lts

variable {σ τ V : Type} {P : Config σ τ V} {n : Nat} {filler : Filler} {t evs : List (Event V)}
  {b b' : Batch V} {s s' : State σ τ V} {h h' : HoldPc}

/-- The watchdog has returned, or the filler has no frame left for it. -/
def HoldPc.Spent (filler : Filler) : HoldPc → Prop
  | .idle | .exited => True
  | .waiting => filler.frame 0 = none
  | .pumping i => filler.frame i = none
  | .sending _ _ => False

def Event.isFiller : Event V → Bool
  | .sendFiller _ _ => true
  | _ => false

/-- `Transport.Send` is not called with a frame of the filler. -/
def NoFiller (t : List (Event V)) : Prop := ∀ ev ∈ t, ev.isFiller = false

theorem NoFiller.append (h : NoFiller t) (h' : NoFiller evs) : NoFiller (t ++ evs) :=
  List.forall_mem_append.mpr ⟨h, h'⟩

/-! ## The watchdog -/

theorem HoldPc.Spent.step (hs : h.Spent filler) {d hd : Bool} (hstep : HoldStep filler d hd h evs h') :
    h'.Spent filler ∧ NoFiller evs := by
  cases hstep with
  | H_Done _ | H_Cancelled _ | H_Closed _ => exact ⟨trivial, by simp [NoFiller]⟩
  | H_Timer => exact ⟨hs, by simp [NoFiller]⟩
  | H_Frame hf => exact nomatch hf.symm.trans hs
  | H_Sent | H_SendFailed => exact hs.elim

/-- A watchdog that is not spent can send a frame, though `done` is closed and `holdCtx` is cancelled. -/
theorem HoldPc.sends (hs : ¬ h.Spent filler) (d hd : Bool) :
    ∃ (t : List (Event V)) (h' : HoldPc), Run (HoldStep filler d hd) h t h' ∧ ¬ NoFiller t := by
  have hsend : ∀ i f, Run (HoldStep filler d hd) (.sending i f) [.sendFiller (V := V) f none] (.pumping (i + 1)) :=
    fun i f => .single .H_Sent
  have hno : ∀ f, ¬ NoFiller [Event.sendFiller (V := V) f none] := fun f hn => nomatch hn _ List.mem_cons_self
  have hpump : ∀ i, filler.frame i ≠ none →
      ∃ (t : List (Event V)) (h' : HoldPc), Run (HoldStep filler d hd) (.pumping i) t h' ∧ ¬ NoFiller t := by
    intro i hi
    obtain ⟨f, hf⟩ := Option.ne_none_iff_exists'.mp hi
    exact ⟨_, _, (hsend i f).cons (.H_Frame hf), hno f⟩
  cases h with
  | idle | exited => exact absurd trivial hs
  | waiting =>
      obtain ⟨t, h', hr, hn⟩ := hpump 0 hs
      exact ⟨_, h', hr.cons .H_Timer, hn⟩
  | pumping i => exact hpump i hs
  | sending i f => exact ⟨_, _, hsend i f, hno f⟩

/-! ## The batch after `Clear` -/

/-- The `Transport.Clear` at the end of the batch has returned. -/
def BatchPc.Cleared : BatchPc V → Prop
  | .respond _ | .send | .report _ | .finished => True
  | _ => False

theorem CoreStep.cleared (hc : b.pc.Cleared) (hs : CoreStep n b evs b') :
    b'.pc.Cleared ∧ b'.hold = b.hold ∧ NoFiller evs := by
  cases hs with
  | B_Announce hp _ | B_Watch hp | B_Add hp _ | B_Acquire hp _ | B_Spawned hp | B_Wait hp _ | B_CloseDone hp
  | B_CancelHold hp | B_Clear hp => rw [hp] at hc; exact hc.elim
  | B_Respond _ _ _ | B_Responded _ | B_Send _ | B_SendFailed _ | B_Report _ =>
      exact ⟨trivial, rfl, by simp [NoFiller, Event.isFiller]⟩
  | B_Begin _ | B_End _ _ | B_Store _ _ | B_Release _ _ | B_Done _ =>
      exact ⟨hc, rfl, by simp [NoFiller, Event.isFiller]⟩

theorem batch_noFiller (hc : b.pc.Cleared) (hs : b.hold.Spent filler)
    (hr : Run (BatchStep n filler) b t b') : NoFiller t := by
  refine (hr.invariant (I := fun t b => NoFiller t ∧ b.pc.Cleared ∧ b.hold.Spent filler) ?_ ?_).1
  · exact ⟨by simp [NoFiller], hc, hs⟩
  · rintro t b evs b' ⟨hn, hc, hs⟩ hstep
    cases hstep with
    | core hstep =>
        obtain ⟨hc', heq, hev⟩ := hstep.cleared hc
        exact ⟨hn.append hev, hc', heq ▸ hs⟩
    | hold runDone hstep =>
        obtain ⟨hs', hev⟩ := hs.step hstep
        exact ⟨hn.append hev, hc, hs'⟩

theorem HoldStep.no_clear {d hd : Bool} (hs : HoldStep (V := V) filler d hd h evs h') : .clear ∉ evs := by
  cases hs <;> simp

theorem cleared_of_mem {calls : List (ToolCall V)} (hr : Run (BatchStep n filler) (.init calls) t b)
    (hmem : .clear ∈ t) : b.pc.Cleared := by
  refine hr.invariant (I := fun t b => .clear ∈ t → b.pc.Cleared) nofun ?_ hmem
  intro t b evs b' h hs hmem
  cases hs with
  | core hs =>
      rcases List.mem_append.mp hmem with hmem | hmem
      · exact (hs.cleared (h hmem)).1
      · cases hs with
        | B_Clear _ => trivial
        | _ => simp at hmem
  | hold _ hs =>
      rcases List.mem_append.mp hmem with hmem | hmem
      · exact h hmem
      · exact absurd hmem hs.no_clear

theorem hold_runs (runDone : Bool)
    (hr : Run (HoldStep filler b.done (b.holdCancelled || runDone)) b.hold t h') :
    Run (BatchStep n filler) b t { b with hold := h' } := by
  induction hr with
  | refl => exact .refl
  | snoc _ hs ih => exact ih.snoc (.hold runDone hs)

theorem batch_noFiller_iff (hc : b.pc.Cleared) :
    (∀ t b', Run (BatchStep n filler) b t b' → NoFiller t) ↔ b.hold.Spent filler := by
  refine ⟨fun hall => ?_, fun hs t b' hr => batch_noFiller hc hs hr⟩
  refine Classical.byContradiction fun hn => ?_
  obtain ⟨t, h', hr, hf⟩ := HoldPc.sends (V := V) hn b.done (b.holdCancelled || false)
  exact hf (hall t _ (hold_runs false hr))

/-! ## The session after `Close` -/

/-- `Transport.Close` has returned. -/
def MainPc.Closed : MainPc V → Prop
  | .closingLLM _ _ | .ending _ _ | .returned _ => True
  | _ => False

/-- Only the watchdogs of batches that are over are left. -/
structure Over (P : Config σ τ V) (s : State σ τ V) : Prop where
  main : s.main.Closed
  audio : s.audio.Off
  events : s.events.Off
  spent : ∀ h ∈ s.holds, h.Spent P.filler

theorem Over.step (ho : Over P s) (hs : Step P s evs s') : Over P s' ∧ NoFiller evs := by
  have hm := ho.main
  have hnil : NoFiller ([] : List (Event V)) := by simp [NoFiller]
  cases hs with
  | main hs =>
      cases hs with
      | M_CloseLLM _ | M_End _ => exact ⟨⟨trivial, ho.audio, ho.events, ho.spent⟩, by simp [NoFiller, Event.isFiller]⟩
      | M_Failed _ => exact ⟨⟨trivial, ho.audio, ho.events, ho.spent⟩, by simp [NoFiller, Event.isFiller]⟩
      | M_Resolved hp _ | M_Unresolved hp _ | M_Fail hp | M_Open hp _ | M_Opened hp _ | M_OpenFailed hp _
      | M_Injected hp | M_Receive hp | M_Events hp | M_Start hp | M_Done hp _ _ | M_ContextDone hp _
      | M_Drained hp _ _ | M_CloseTransport hp => rw [hp] at hm; exact hm.elim
  | audio hs => exact absurd ho.audio hs.not_off
  | events hs => exact absurd ho.events hs.not_off
  | filler hs =>
      cases hs with
      | F_Batch he _ =>
          have := ho.events
          rw [he] at this
          exact this.elim
      | F_Over pre post hholds hh =>
          have hspent := ho.spent
          rw [hholds, List.forall_mem_append, List.forall_mem_cons] at hspent
          obtain ⟨hpre, hh₀, hpost⟩ := hspent
          obtain ⟨hh', hev⟩ := hh₀.step hh
          refine ⟨⟨ho.main, ho.audio, ho.events, ?_⟩, hev⟩
          exact List.forall_mem_append.mpr ⟨hpre, List.forall_mem_cons.mpr ⟨hh', hpost⟩⟩
  | adapter hs =>
      cases hs with
      | @T_Tick _ e _ | @L_Tick _ e _ =>
          exact ⟨⟨ho.main, ho.audio, ho.events, ho.spent⟩, by cases e <;> simp [NoFiller, Event.isFiller]⟩
  | env hs =>
      cases hs with
      | N_Transport _ | N_LLM _ => exact ⟨⟨ho.main, ho.audio, ho.events, ho.spent⟩, hnil⟩
      | N_Context _ _ => exact ⟨⟨ho.main, ho.audio, ho.events, ho.spent⟩, by simp [NoFiller, Event.isFiller]⟩

theorem Over.noFiller (ho : Over P s) (hr : Run (Step P) s t s') : NoFiller t := by
  refine (hr.invariant (I := fun t s => NoFiller t ∧ Over P s) ⟨by simp [NoFiller], ho⟩ ?_).1
  rintro t s evs s' ⟨hn, ho⟩ hs
  obtain ⟨ho', hev⟩ := ho.step hs
  exact ⟨hn.append hev, ho'⟩

theorem over_runs (pre post : List HoldPc) (hholds : s.holds = pre ++ h :: post)
    (hr : Run (HoldStep P.filler true true) h t h') : Run (Step P) s t { s with holds := pre ++ h' :: post } := by
  induction hr with
  | refl =>
      rw [← hholds]
      exact .refl
  | snoc _ hs ih => exact ih.snoc (.filler (.F_Over pre post rfl hs))

/-- The transport is closed only at the end. -/
theorem closed_of_mem (hl : ReleaseLaw P t s.main) (hmem : .transportClose ∈ t) :
    s.main.Closed := by
  have hpos : closes t ≠ (0, 0) := by
    intro hc
    rw [closes, Prod.mk.injEq, List.countP_eq_zero] at hc
    exact hc.1 _ hmem rfl
  cases hm : s.main with
  | closingLLM _ _ | ending _ _ | returned _ => trivial
  | resolving | opening | failing _ | failed _ | injected | receiving | subscribing | starting | waiting
  | draining | closingTransport _ _ =>
      rw [hm] at hl
      exact absurd hl.1 hpos

theorem session_noFiller_iff (hl : ReleaseLaw P t s.main) (ho : Outcomes t s) (hmem : .transportClose ∈ t) :
    (∀ t' s', Run (Step P) s t' s' → NoFiller t') ↔ ∀ h ∈ s.holds, h.Spent P.filler := by
  have hclosed := closed_of_mem hl hmem
  have hquiet := ho.quiet (by cases hm : s.main <;> rw [hm] at hclosed <;> first | exact id | exact hclosed.elim)
  constructor
  · intro hall h hh
    refine Classical.byContradiction fun hn => ?_
    obtain ⟨pre, post, hholds⟩ := List.append_of_mem hh
    obtain ⟨t', h', hr, hf⟩ := HoldPc.sends (V := V) hn true true
    exact hf (hall t' _ (over_runs pre post hholds hr))
  · intro hspent t' s' hr
    exact Over.noFiller ⟨hclosed, hquiet.1, hquiet.2, hspent⟩ hr

end Gopkg.Voice
