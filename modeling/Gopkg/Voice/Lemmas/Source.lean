import Gopkg.Voice.Lemmas.Dispatch

/-!
# A session as the client of its transport

`Run` calls `Receive` once, takes the frames one by one, and passes each of them on to `LLM.SendAudio` after its
conversion.
-/

namespace Gopkg.Voice

open Lts

variable {σ τ V α : Type} {P : Config σ τ V} {t evs : List (Event V)} {s s' : State σ τ V} {b : Bridge × Bridge}

/-! ## Clients -/

structure Client (σ : Type) where
  source : σ
  -- `Receive` or `Events` was called.
  started : Bool
  -- The context of the call is done.
  done : Bool

def Client.init (x : σ) : Client σ := { source := x, started := false, done := false }

/-- What may happen to a source and its client. The items that the client takes are shown. -/
inductive ClientStep (T : Source σ α V) : Client σ → List α → Client σ → Prop
  | K_Start {c : Client σ} : c.started = false →
      ClientStep T c [] { c with source := T.start c.source, started := true }
  | K_Tick {c : Client σ} {e : Option (Ending V)} {x : σ} : T.tick c.done c.source e x →
      ClientStep T c [] { c with source := x }
  | K_Peer {c : Client σ} {x : σ} : T.peer c.source x → ClientStep T c [] { c with source := x }
  | K_Take {c : Client σ} {a : α} {x : σ} : T.recv c.done c.source (.item a) x →
      ClientStep T c [a] { c with source := x }
  | K_Recv {c : Client σ} {r : Recv α V} {x : σ} : T.recv c.done c.source r x → (∀ a, r ≠ .item a) →
      ClientStep T c [] { c with source := x }
  | K_Close {c : Client σ} : ClientStep T c [] { c with source := T.close c.source }
  | K_Cancel {c : Client σ} : ClientStep T c [] { c with done := true }

/-! ## The frames for the LLM -/

def sentFrame? : Event V → Option Frame
  | .sendAudio f _ => some f
  | _ => none

/-- The frames that were passed to `LLM.SendAudio`. -/
def sentFrames (evs : List (Event V)) : List Frame := evs.filterMap sentFrame?

def inHand : AudioPc V → List Frame
  | .sending f => [f]
  | _ => []

theorem sentFrames_append (evs evs' : List (Event V)) : sentFrames (evs ++ evs') = sentFrames evs ++ sentFrames evs' :=
  List.filterMap_append

theorem inHand_off {pc : AudioPc V} (h : pc.Off) : inHand pc = [] := by
  cases pc with
  | sending f => exact h.elim
  | idle | select | exiting _ => rfl

theorem inHand_audioSent (err : Option (Err V)) : inHand (audioSent err) = [] := by
  cases err <;> rfl

theorem CoreStep.sentFrames_eq {n : Nat} {b b' : Batch V} (h : CoreStep n b evs b') : sentFrames evs = [] := by
  cases h <;> rfl

theorem HoldStep.sentFrames_eq {filler : Filler} {d hd : Bool} {h h' : HoldPc}
    (hs : HoldStep filler d hd h evs h') : sentFrames evs = [] := by
  cases hs <;> rfl

theorem sentFrames_shows (a : Action V) (p : Bool) : sentFrames [a.shows p] = [] := by
  cases a <;> rfl

theorem done_cancel (h : s.done = true) : s.cancel.done = true := by
  rw [State.done] at h
  obtain ⟨e, he⟩ := Option.isSome_iff_exists.mp h
  simp [State.done, State.cancel, he]

theorem ExitStep.quiet {x x' : Exit V} (h : ExitStep s x evs s' x') : sentFrames evs = [] ∧ received evs = [] ∧
    s'.transport = s.transport ∧ s'.llm = s.llm ∧ s'.main = s.main ∧ s'.audio = s.audio ∧
      (s.done = true → s'.done = true) := by
  cases h with
  | X_Closed | X_Failed | X_Report => exact ⟨rfl, rfl, rfl, rfl, rfl, rfl, id⟩
  | X_Cancel => exact ⟨rfl, rfl, rfl, rfl, rfl, rfl, done_cancel⟩

/-- What `SendAudio` gets for a frame: its conversion, which does not fail. -/
theorem inHand_audioAfter (b : Bridge) (f : Frame) :
    (inHand (audioAfter b f : AudioPc V)).map .ok = [b.convert (V := V) f] := by
  cases b <;> rfl

/-! ## A session serves one client -/

/-- `Run` has not called `Receive`, and can still do so. -/
def MainPc.Early : MainPc V → Prop
  | .resolving | .opening | .injected | .receiving => True
  | _ => False

/-- The client that the session is to its transport, with the frames it has taken. -/
structure Serves (P : Config σ τ V) (b : Bridge × Bridge) (x : σ) (t : List (Event V)) (s : State σ τ V)
    (got : List Frame) (c : Client σ) : Prop where
  run : Run (ClientStep P.transport.toSource) (Client.init x) got c
  source : c.source = s.transport
  done : c.done = s.done
  early : s.main.Early → c.started = false
  frames : got.map (b.1.convert (V := V)) = (sentFrames t ++ inHand s.audio).map .ok

variable {x : σ} {got : List Frame} {c : Client σ}

/-- A step beside the transport. -/
theorem Serves.still (h : Serves P b x t s got c) (hsent : sentFrames evs = [])
    (htransport : s'.transport = s.transport) (hdone : s.done = true → s'.done = true)
    (hearly : s'.main.Early → s.main.Early) (haudio : inHand s'.audio = inHand s.audio) :
    ∃ got' c', Serves P b x (t ++ evs) s' got' c' := by
  have hframes : got.map (b.1.convert (V := V)) = (sentFrames (t ++ evs) ++ inHand s'.audio).map .ok := by
    rw [sentFrames_append, hsent, List.append_nil, haudio]
    exact h.frames
  by_cases hsame : s'.done = s.done
  · exact ⟨got, c, h.run, h.source.trans htransport.symm, h.done.trans hsame.symm, fun he => h.early (hearly he),
      hframes⟩
  · have hnow : s'.done = true := by
      cases hd : s.done with
      | true => exact hdone hd
      | false => simpa [hd] using hsame
    refine ⟨got, { c with done := true }, ?_, h.source.trans htransport.symm, hnow.symm, fun he => h.early (hearly he),
      hframes⟩
    simpa using h.run.snoc .K_Cancel

/-- A step of the transport that shows nothing. -/
theorem Serves.move {c' : Client σ} (h : Serves P b x t s got c)
    (hc : ClientStep P.transport.toSource c [] c') (hsource : c'.source = s'.transport) (hdone : c'.done = s'.done)
    (hearly : s'.main.Early → c'.started = false) (hsent : sentFrames evs = [])
    (haudio : inHand s'.audio = inHand s.audio) : ∃ got' c', Serves P b x (t ++ evs) s' got' c' := by
  refine ⟨got, c', by simpa using h.run.snoc hc, hsource, hdone, hearly, ?_⟩
  rw [sentFrames_append, hsent, List.append_nil, haudio]
  exact h.frames

theorem Serves.mainStep (h : Serves P b x t s got c) (ho : Outcomes t s) (hs : MainStep P s evs s') :
    ∃ got' c', Serves P b x (t ++ evs) s' got' c' := by
  cases hs with
  | M_Start hm =>
      refine h.still rfl rfl id (fun he => he.elim) ?_
      exact (inHand_off (ho.quiet (by rw [hm]; exact id)).1).symm
  | M_Receive hm =>
      refine h.move (.K_Start (h.early (by rw [hm]; trivial))) ?_ h.done (fun he => he.elim) rfl rfl
      rw [h.source]
  | M_CloseTransport hm => exact h.move .K_Close (by rw [h.source]) h.done (fun he => he.elim) rfl rfl
  | M_ContextDone _ _ | M_End _ => exact h.still rfl rfl done_cancel (fun he => he.elim) rfl
  | M_Resolved hm _ | M_Open hm _ | M_Opened hm _ | M_Injected hm =>
      exact h.still rfl rfl id (fun _ => by rw [hm]; trivial) rfl
  | M_Unresolved _ _ | M_Fail _ | M_Failed _ | M_OpenFailed _ _ | M_Events _ | M_Done _ _ _ | M_Drained _ _ _
  | M_CloseLLM _ => exact h.still rfl rfl id (fun he => he.elim) rfl

theorem Serves.audioStep (hb : P.bridges = .ok b) (h : Serves P b x t s got c) (hs : AudioStep P s evs s') :
    ∃ got' c', Serves P b x (t ++ evs) s' got' c' := by
  cases hs with
  | @A_Frame b' f x' ha hb' hrecv =>
      cases hb.symm.trans hb'
      rw [← h.source, ← h.done] at hrecv
      refine ⟨got ++ [f], { c with source := x' }, h.run.snoc (.K_Take hrecv), rfl, h.done, h.early, ?_⟩
      have hframes := h.frames
      rw [ha, show inHand (.select : AudioPc V) = [] from rfl, List.append_nil] at hframes
      rw [List.append_nil, List.map_append, List.map_append, hframes, inHand_audioAfter, List.map_singleton]
  | A_Closed ha hrecv | A_Error ha hrecv =>
      rw [← h.source, ← h.done] at hrecv
      exact h.move (.K_Recv hrecv (by simp)) rfl h.done h.early rfl (by rw [ha]; rfl)
  | A_NoError ha hx hrecv =>
      rw [← h.source, ← h.done] at hrecv
      refine h.move (.K_Recv hrecv ?_) rfl h.done h.early rfl rfl
      rcases hx with rfl | rfl <;> simp
  | @A_Send f err ha =>
      have hframes := h.frames
      rw [ha] at hframes
      refine ⟨got, c, h.run, h.source, h.done, h.early, ?_⟩
      rw [sentFrames_append, inHand_audioSent, List.append_nil]
      exact hframes
  | A_Exit ha hx =>
      obtain ⟨hsent, -, htransport, -, hmain, -, hdone⟩ := ExitStep.quiet hx
      exact h.still hsent htransport hdone (fun he => hmain ▸ he) (by rw [ha]; rfl)

theorem Serves.eventsStep (h : Serves P b x t s got c) (hs : EventsStep P s evs s') :
    ∃ got' c', Serves P b x (t ++ evs) s' got' c' := by
  cases hs with
  | E_Act _ => exact h.still (sentFrames_shows _ _) rfl id id rfl
  | E_Batch _ hc => exact h.still (CoreStep.sentFrames_eq hc) rfl id id rfl
  | E_Exit _ hx =>
      obtain ⟨hsent, -, htransport, -, hmain, haudio, hdone⟩ := ExitStep.quiet hx
      exact h.still hsent htransport hdone (fun he => hmain ▸ he) (congrArg inHand haudio)
  | E_Event _ _ _ | E_Closed _ _ | E_Error _ _ | E_NoError _ _ _ | E_Send _ _ | E_Acted _ | E_Finish _ _ =>
      exact h.still rfl rfl id id rfl

theorem Serves.step (hb : P.bridges = .ok b) (h : Serves P b x t s got c) (ho : Outcomes t s)
    (hs : Step P s evs s') : ∃ got' c', Serves P b x (t ++ evs) s' got' c' := by
  cases hs with
  | main hs => exact h.mainStep ho hs
  | audio hs => exact h.audioStep hb hs
  | events hs => exact h.eventsStep hs
  | filler hs =>
      cases hs with
      | F_Batch _ hh | F_Over _ _ _ hh => exact h.still (HoldStep.sentFrames_eq hh) rfl id id rfl
  | adapter hs =>
      cases hs with
      | @T_Tick _ e htick =>
          rw [← h.source, ← h.done] at htick
          exact h.move (.K_Tick htick) rfl h.done h.early (by cases e <;> rfl) rfl
      | @L_Tick _ e _ => exact h.still (by cases e <;> rfl) rfl id id rfl
  | env hs =>
      cases hs with
      | N_Transport hpeer =>
          rw [← h.source] at hpeer
          exact h.move (.K_Peer hpeer) rfl h.done h.early rfl rfl
      | N_LLM _ => exact h.still rfl rfl id id rfl
      | N_Context _ _ =>
          refine h.still rfl rfl (fun hd => ?_) id rfl
          obtain ⟨e, he⟩ := Option.isSome_iff_exists.mp hd
          simp [State.done, he]

/-- Every run of a session is one of a client of its transport, which takes the frames that are sent on. -/
theorem Serves.exists_run (hb : P.bridges = .ok b) {l : τ} (hr : Run (Step P) (State.init x l) t s) :
    ∃ got c, Serves P b x t s got c := by
  refine (hr.invariant (I := fun t s => Outcomes t s ∧ ∃ got c, Serves P b x t s got c) ?_ ?_).2
  · exact ⟨.init x l, [], .init x, .refl, rfl, rfl, fun _ => rfl, rfl⟩
  · rintro t s evs s' ⟨ho, got, c, h⟩ hs
    exact ⟨ho.step hs, h.step hb ho hs⟩

end Gopkg.Voice
