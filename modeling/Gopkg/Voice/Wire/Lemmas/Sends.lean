import Gopkg.Voice.Lemmas.Source

/-!
# The calls that an endpoint has accepted

A goroutine that gets an error from `SendAudio` or from `Send` is on its way out. So the calls that have returned nil
are the first ones, and all of them as long as the goroutine has not left.
-/

namespace Gopkg.Voice

open Lts

variable {σ τ V : Type} {P : Config σ τ V} {t evs : List (Event V)} {s s' : State σ τ V}

def AudioPc.Leaving : AudioPc V → Prop
  | .exiting _ => True
  | _ => False

def EventsPc.Leaving : EventsPc V → Prop
  | .exiting _ => True
  | _ => False

/-- Before `OnSessionStart` the caller-audio goroutine does not run. -/
theorem Outcomes.audio_unstarted (h : Outcomes t s) (hm : s.main = .starting) : s.audio = .idle := by
  have hmain := h.main
  have haudio := h.audio
  have hoff := (h.quiet (by rw [hm]; exact id)).1
  rw [hm] at hmain
  rw [hmain.1] at haudio
  generalize s.audio = pc at hoff haudio
  cases pc with
  | idle => rfl
  | exiting x =>
      cases x with
      | gone => exact nomatch haudio
      | record _ _ | report _ | cancel => exact hoff.elim
  | select | sending _ => exact hoff.elim

/-! ## Steps -/

/-- Neither a call of `SendAudio` nor one of `Send` with audio of the LLM. -/
def Event.Mute : Event V → Prop
  | .sendAudio _ _ | .send _ _ => False
  | _ => True

/-- What a step of the session does to the calls of the two goroutines. -/
inductive SendStep : State σ τ V → List (Event V) → State σ τ V → Prop
  | mute {s s' : State σ τ V} {evs : List (Event V)} : (∀ ev ∈ evs, ev.Mute) →
      (s.audio.Leaving → s'.audio.Leaving) → (s.events.Leaving → s'.events.Leaving) → SendStep s evs s'
  | audio {s : State σ τ V} {f : Frame} (err : Option (Err V)) : s.audio = .sending f →
      SendStep s [.sendAudio f err] { s with audio := audioSent err }
  | voice {s : State σ τ V} {f : Frame} (err : Option (Err V)) : s.events = .sending f →
      SendStep s [.send f err] { s with events := eventsSent err }

theorem CoreStep.mute {n : Nat} {b b' : Batch V} (h : CoreStep n b evs b') : ∀ ev ∈ evs, ev.Mute := by
  cases h <;> simp [Event.Mute]

theorem HoldStep.mute {filler : Filler} {d hd : Bool} {h h' : HoldPc} (hs : HoldStep filler d hd h evs h') :
    ∀ ev ∈ evs, ev.Mute := by
  cases hs <;> simp [Event.Mute]

theorem ExitStep.mute {x x' : Exit V} (h : ExitStep s x evs s' x') :
    (∀ ev ∈ evs, ev.Mute) ∧ s'.audio = s.audio ∧ s'.events = s.events := by
  cases h <;> exact ⟨by simp [Event.Mute], rfl, rfl⟩

theorem AudioStep.sendStep (hs : AudioStep P s evs s') : SendStep s evs s' := by
  cases hs with
  | A_Send err ha => exact .audio err ha
  | A_Exit ha hx =>
      obtain ⟨hmute, -, hevents⟩ := hx.mute
      exact .mute hmute (fun _ => trivial) fun h => hevents ▸ h
  | A_Frame ha _ _ | A_Closed ha _ | A_Error ha _ =>
      refine .mute (by simp) (fun h => ?_) id
      rw [ha] at h
      exact h.elim
  | A_NoError _ _ _ => exact .mute (by simp) id id

theorem EventsStep.sendStep (hs : EventsStep P s evs s') : SendStep s evs s' := by
  cases hs with
  | E_Send err he => exact .voice err he
  | E_Exit he hx =>
      obtain ⟨hmute, haudio, -⟩ := hx.mute
      exact .mute hmute (fun h => haudio ▸ h) fun _ => trivial
  | @E_Act a as p he =>
      refine .mute ?_ id (fun h => ?_)
      · cases a <;> simp [Action.shows, Event.Mute]
      · rw [he] at h
        exact h.elim
  | E_Batch he hc =>
      refine .mute hc.mute id (fun h => ?_)
      rw [he] at h
      exact h.elim
  | E_Event he _ _ | E_Closed he _ | E_Error he _ | E_Acted he | E_Finish he _ =>
      refine .mute (by simp [Event.Mute]) id (fun h => ?_)
      rw [he] at h
      exact h.elim
  | E_NoError _ _ _ => exact .mute (by simp) id id

theorem Step.sendStep (ho : Outcomes t s) (hs : Step P s evs s') : SendStep s evs s' := by
  cases hs with
  | main hs =>
      cases hs with
      | M_Start hm =>
          refine .mute (by simp [Event.Mute]) ?_ ?_
          · rw [ho.audio_unstarted hm]
            exact False.elim
          · rw [ho.unstarted hm]
            exact False.elim
      | M_Resolved _ _ | M_Unresolved _ _ | M_Fail _ | M_Failed _ | M_Open _ _ | M_Opened _ _ | M_OpenFailed _ _
      | M_Injected _ | M_Receive _ | M_Events _ | M_Done _ _ _ | M_ContextDone _ _ | M_Drained _ _ _
      | M_CloseTransport _ | M_CloseLLM _ | M_End _ => exact .mute (by simp [Event.Mute]) id id
  | audio hs => exact hs.sendStep
  | events hs => exact hs.sendStep
  | filler hs =>
      cases hs with
      | F_Batch he hh =>
          refine .mute hh.mute id (fun h => ?_)
          rw [he] at h
          exact h.elim
      | F_Over _ _ _ hh => exact .mute hh.mute id id
  | adapter hs =>
      cases hs with
      | @T_Tick _ e _ | @L_Tick _ e _ => exact .mute (by cases e <;> simp [Event.Mute]) id id
  | env hs => cases hs <;> exact .mute (by simp [Event.Mute]) id id

/-! ## Accepted calls -/

/-- `ok` are the accepted calls among `all`; after `out` there are no others. -/
structure Kept {α : Type} (ok all : List α) (out : Prop) : Prop where
  begins : ok <+: all
  whole : ¬ out → ok = all

section Kept

variable {α : Type} {ok all : List α} {out out' : Prop}

theorem Kept.still (h : Kept ok all out) (hout : out → out') : Kept ok all out' :=
  ⟨h.begins, fun hin => h.whole (mt hout hin)⟩

theorem Kept.accept (h : Kept ok all out) (hin : ¬ out) (x : α) : Kept (ok ++ [x]) (all ++ [x]) out' := by
  rw [h.whole hin]
  exact ⟨List.prefix_rfl, fun _ => rfl⟩

theorem Kept.reject (h : Kept ok all out) (hout : out') (x : α) : Kept ok (all ++ [x]) out' :=
  ⟨h.begins.trans (List.prefix_append _ _), fun hin => absurd hout hin⟩

end Kept

def acceptedFrame? : Event V → Option Frame
  | .sendAudio f none => some f
  | _ => none

/-- The frames for which `SendAudio` has returned nil. -/
def acceptedFrames (t : List (Event V)) : List Frame := t.filterMap acceptedFrame?

def spokenFrame? : Event V → Option Frame
  | .send f _ => some f
  | _ => none

/-- The frames of the LLM that were passed to `Send`. -/
def spokenFrames (t : List (Event V)) : List Frame := t.filterMap spokenFrame?

def heardFrame? : Event V → Option Frame
  | .send f none => some f
  | _ => none

/-- The frames of the LLM for which `Send` has returned nil. -/
def heardFrames (t : List (Event V)) : List Frame := t.filterMap heardFrame?

structure SendsKept (t : List (Event V)) (s : State σ τ V) : Prop where
  audio : Kept (acceptedFrames t) (sentFrames t) s.audio.Leaving
  voice : Kept (heardFrames t) (spokenFrames t) s.events.Leaving

theorem filterMap_mute {f : Event V → Option Frame} (hf : ∀ ev, ev.Mute → f ev = none) (h : ∀ ev ∈ evs, ev.Mute) :
    (t ++ evs).filterMap f = t.filterMap f := by
  rw [List.filterMap_append, List.filterMap_eq_nil_iff.mpr fun ev hev => hf ev (h ev hev), List.append_nil]

theorem mute_calls {ev : Event V} (h : ev.Mute) :
    acceptedFrame? ev = none ∧ sentFrame? ev = none ∧ heardFrame? ev = none ∧ spokenFrame? ev = none := by
  cases ev with
  | sendAudio _ _ | send _ _ => exact h.elim
  | _ => exact ⟨rfl, rfl, rfl, rfl⟩

theorem SendsKept.step (h : SendsKept t s) (hs : SendStep s evs s') : SendsKept (t ++ evs) s' := by
  cases hs with
  | mute hmute haudio hevents =>
      constructor
      · rw [acceptedFrames, sentFrames, filterMap_mute (fun _ h => (mute_calls h).1) hmute,
          filterMap_mute (fun _ h => (mute_calls h).2.1) hmute]
        exact h.audio.still haudio
      · rw [heardFrames, spokenFrames, filterMap_mute (fun _ h => (mute_calls h).2.2.1) hmute,
          filterMap_mute (fun _ h => (mute_calls h).2.2.2) hmute]
        exact h.voice.still hevents
  | @audio f err ha =>
      have hin : ¬ s.audio.Leaving := by
        rw [ha]
        exact id
      have hvoice : Kept (heardFrames t ++ []) (spokenFrames t ++ []) s.events.Leaving := by
        simpa only [List.append_nil] using h.voice
      refine ⟨?_, ?_⟩
      · rw [acceptedFrames, sentFrames, List.filterMap_append, List.filterMap_append]
        cases err with
        | none => exact h.audio.accept hin f
        | some e =>
            rw [show [Event.sendAudio f (some e)].filterMap acceptedFrame? = [] from rfl, List.append_nil]
            exact h.audio.reject trivial f
      · rw [heardFrames, spokenFrames, List.filterMap_append, List.filterMap_append]
        exact hvoice
  | @voice f err he =>
      have hin : ¬ s.events.Leaving := by
        rw [he]
        exact id
      have haudio : Kept (acceptedFrames t ++ []) (sentFrames t ++ []) s.audio.Leaving := by
        simpa only [List.append_nil] using h.audio
      refine ⟨?_, ?_⟩
      · rw [acceptedFrames, sentFrames, List.filterMap_append, List.filterMap_append]
        exact haudio
      · rw [heardFrames, spokenFrames, List.filterMap_append, List.filterMap_append]
        cases err with
        | none => exact h.voice.accept hin f
        | some e =>
            rw [show [Event.send f (some e)].filterMap heardFrame? = [] from rfl, List.append_nil]
            exact h.voice.reject trivial f

theorem SendsKept.run {x : σ} {l : τ} (hr : Run (Step P) (State.init x l) t s) : SendsKept t s := by
  refine (hr.invariant (I := fun t s => Outcomes t s ∧ SendsKept t s) ?_ ?_).2
  · exact ⟨.init x l, ⟨List.nil_prefix, fun _ => rfl⟩, ⟨List.nil_prefix, fun _ => rfl⟩⟩
  · intro t s evs s' h hs
    exact ⟨h.1.step hs, h.2.step (hs.sendStep h.1)⟩

end Gopkg.Voice
