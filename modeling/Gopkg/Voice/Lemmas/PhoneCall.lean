import Gopkg.Voice.Lemmas.Outcome
import Gopkg.Voice.Lemmas.Reader
import Gopkg.Voice.Lemmas.ToolProgress

/-!
# States of a phone call

The invariant of the composed system: which goroutines have been started, what the error channels hold, and
that a running tool batch is a lawful one.
-/

namespace Gopkg.Voice

open Lts

variable {V : Type} {C : CallSetup} {t evs : List (Event V)} {s s' : CallState V}

def CallState.Unstarted (s : CallState V) : Prop := s.transport.pc = .idle ∧ s.llm.reader.pc = .idle

def CallState.Started (s : CallState V) : Prop := s.transport.pc ≠ .idle ∧ s.llm.reader.pc ≠ .idle

def PhaseLaw (s : CallState V) : MainPc V → Prop
  | .resolving | .opening => s.Unstarted ∧ s.llm.openPc ≠ .opened ∧ s.llm.reader.conn ≠ .closed
  | .failing _ | .failed _ | .injected | .receiving => s.Unstarted
  | .subscribing => s.transport.pc ≠ .idle ∧ s.llm.reader.pc = .idle
  | .starting => s.Started
  | .waiting | .draining => s.Started ∧ s.audio ≠ .idle ∧ s.events ≠ .idle
  | .closingTransport _ _ | .closingLLM _ _ | .ending _ _ => s.Started
  | .returned _ => s.ended = none → s.Unstarted

structure Sound (C : CallSetup) (s : CallState V) : Prop where
  transport : s.transport.Lawful
  llm : s.llm.reader.Lawful
  context : s.ctx.isSome → s.runCtx.isSome
  phase : PhaseLaw s s.main
  batch : ∀ b, s.events = .batch b → ∃ calls t, BatchLaw C.toolConcurrency calls t b

theorem Sound.init (C : CallSetup) : Sound C (CallState.init : CallState V) where
  transport := fun h => absurd rfl h
  llm := fun h => absurd rfl h
  context := id
  phase := ⟨⟨rfl, rfl⟩, nofun, nofun⟩
  batch := nofun

/-! ## Steps beside the caller of `Run` -/

/-- A step that starts nothing and closes nothing. -/
structure Follows (s s' : CallState V) : Prop where
  main : s'.main = s.main
  transportIdle : s'.transport.pc = .idle ↔ s.transport.pc = .idle
  llmIdle : s'.llm.reader.pc = .idle ↔ s.llm.reader.pc = .idle
  openPc : s'.llm.openPc = s.llm.openPc
  conn : s'.llm.reader.conn = .closed → s.llm.reader.conn = .closed
  audio : s'.audio = .idle → s.audio = .idle
  events : s'.events = .idle → s.events = .idle
  ended : s'.ended = none → s.ended = none
  runCtx : s.runCtx.isSome → s'.runCtx.isSome

theorem Follows.refl (s : CallState V) : Follows s s where
  main := rfl
  transportIdle := .rfl
  llmIdle := .rfl
  openPc := rfl
  conn := id
  audio := id
  events := id
  ended := id
  runCtx := id

theorem Follows.phase (hf : Follows s s') (h : PhaseLaw s s.main) : PhaseLaw s' s'.main := by
  have hun : s.Unstarted → s'.Unstarted := fun hu => ⟨hf.transportIdle.mpr hu.1, hf.llmIdle.mpr hu.2⟩
  have hst : s.Started → s'.Started := fun hs =>
    ⟨fun hi => hs.1 (hf.transportIdle.mp hi), fun hi => hs.2 (hf.llmIdle.mp hi)⟩
  rw [hf.main]
  cases hm : s.main with
  | resolving | opening =>
      rw [hm] at h
      exact ⟨hun h.1, fun ho => h.2.1 (hf.openPc ▸ ho), fun hc => h.2.2 (hf.conn hc)⟩
  | failing _ | failed _ | injected | receiving =>
      rw [hm] at h
      exact hun h
  | subscribing =>
      rw [hm] at h
      exact ⟨fun hi => h.1 (hf.transportIdle.mp hi), hf.llmIdle.mpr h.2⟩
  | waiting | draining =>
      rw [hm] at h
      exact ⟨hst h.1, fun hi => h.2.1 (hf.audio hi), fun hi => h.2.2 (hf.events hi)⟩
  | starting | closingTransport _ _ | closingLLM _ _ | ending _ _ =>
      rw [hm] at h
      exact hst h
  | returned e =>
      rw [hm] at h
      exact fun he => hun (h (hf.ended he))

theorem Sound.follow (h : Sound C s) (hf : Follows s s') (ht : s'.transport.Lawful)
    (hl : s'.llm.reader.Lawful) (hctx : s'.ctx = s.ctx)
    (hb : ∀ b, s'.events = .batch b → ∃ calls t, BatchLaw C.toolConcurrency calls t b) : Sound C s' where
  transport := ht
  llm := hl
  context hc := hf.runCtx (h.context (hctx ▸ hc))
  phase := hf.phase h.phase
  batch := hb

theorem audioAfter_ne_idle (b : Bridge) (f : Frame) : (audioAfter b f : AudioPc V) ≠ .idle := by
  unfold audioAfter
  split <;> exact nofun

theorem audioSent_ne_idle (err : Option (Err V)) : audioSent err ≠ .idle := by
  cases err with
  | none => exact nofun
  | some e => exact nofun

theorem eventsSent_eq (err : Option (Err V)) : eventsSent err = .select ∨ ∃ x, eventsSent err = .exiting x := by
  cases err with
  | none => exact .inl rfl
  | some e => exact .inr ⟨_, rfl⟩

theorem dispatch_ne_idle (b : Bridge) (n : Int) (ev : LLMEvent V) : dispatch b n ev ≠ .idle := by
  cases ev with
  | audioOut f =>
      simp only [dispatch]
      split <;> simp
  | assistantText _ _ | callerTranscript _ | turnComplete | interrupted | toolCalls _ => simp [dispatch]

theorem dispatch_batch {b : Bridge} {n : Int} {ev : LLMEvent V} {b' : Batch V}
    (h : dispatch b n ev = .batch b') : ∃ calls, b' = .init calls := by
  cases ev with
  | audioOut f =>
      simp only [dispatch] at h
      split at h <;> cases h
  | toolCalls calls =>
      cases h
      exact ⟨calls, rfl⟩
  | assistantText _ _ | callerTranscript _ | turnComplete | interrupted => cases h

theorem ExitStep.follows {x x' : Exit V} (h : ExitStep s x evs s' x') :
    Follows s s' ∧ s'.transport = s.transport ∧ s'.llm = s.llm ∧ s'.ctx = s.ctx ∧ s'.audio = s.audio ∧
      s'.events = s.events := by
  have hor : ∀ {α : Type} {a b : Option α}, a.or b = none → a = none := fun h => (Option.or_eq_none_iff.mp h).1
  cases h with
  | X_Closed => exact ⟨{ Follows.refl s with ended := hor }, rfl, rfl, rfl, rfl, rfl⟩
  | X_Failed => exact ⟨{ Follows.refl s with ended := hor }, rfl, rfl, rfl, rfl, rfl⟩
  | X_Report => exact ⟨.refl s, rfl, rfl, rfl, rfl, rfl⟩
  | X_Cancel =>
      refine ⟨{ Follows.refl s with runCtx := fun _ => ?_ }, rfl, rfl, rfl, rfl, rfl⟩
      simp [State.cancel]

theorem ExitStep.exists {x : Exit V} (s : CallState V) (hx : x ≠ .gone) :
    ∃ evs s' x', ExitStep s x evs s' x' := by
  cases x with
  | record r e =>
      cases e with
      | none => exact ⟨_, _, _, .X_Closed⟩
      | some e => exact ⟨_, _, _, .X_Failed⟩
  | report e => exact ⟨_, _, _, .X_Report (p := false)⟩
  | cancel => exact ⟨_, _, _, .X_Cancel⟩
  | gone => exact absurd rfl hx

theorem Sound.audioStep (h : Sound C s) (hs : AudioStep (phoneCall V C) s evs s') : Sound C s' := by
  cases hs with
  | A_Frame ha hb hr =>
      have hr : ReaderRecv s.transport _ _ := hr
      refine h.follow { Follows.refl s with transportIdle := hr.idle_iff, audio := ?_ } (hr.lawful h.transport)
        h.llm rfl h.batch
      exact fun hi => absurd hi (audioAfter_ne_idle _ _)
  | A_Closed ha hr | A_Error ha hr =>
      have hr : ReaderRecv s.transport _ _ := hr
      exact h.follow { Follows.refl s with transportIdle := hr.idle_iff, audio := nofun } (hr.lawful h.transport)
        h.llm rfl h.batch
  | A_NoError ha _ hr =>
      have hr : ReaderRecv s.transport _ _ := hr
      exact h.follow { Follows.refl s with transportIdle := hr.idle_iff } (hr.lawful h.transport) h.llm rfl h.batch
  | A_Send err ha =>
      exact h.follow { Follows.refl s with audio := fun hi => absurd hi (audioSent_ne_idle err) } h.transport
        h.llm rfl h.batch
  | A_Exit ha hx =>
      obtain ⟨hf, ht, hl, hctx, _, he⟩ := hx.follows
      exact h.follow { hf with audio := nofun } (ht ▸ h.transport) (hl ▸ h.llm) hctx (he ▸ h.batch)

theorem Sound.eventsStep (h : Sound C s) (hs : EventsStep (phoneCall V C) s evs s') : Sound C s' := by
  cases hs with
  | E_Event he hb hr =>
      obtain ⟨r, hr, rfl⟩ := hr
      refine h.follow { Follows.refl s with llmIdle := hr.idle_iff, conn := ?_, events := ?_ } h.transport
        (hr.lawful h.llm) rfl ?_
      · exact fun hc => hr.conn_eq ▸ hc
      · exact fun hi => absurd hi (dispatch_ne_idle _ _ _)
      · intro b hd
        obtain ⟨calls, rfl⟩ := dispatch_batch hd
        exact ⟨calls, [], .init _ calls⟩
  | E_Closed he hr | E_Error he hr =>
      obtain ⟨r, hr, rfl⟩ := hr
      exact h.follow { Follows.refl s with
        llmIdle := hr.idle_iff, conn := fun hc => hr.conn_eq ▸ hc, events := nofun } h.transport
        (hr.lawful h.llm) rfl fun _ hb => nomatch hb
  | E_NoError he _ hr =>
      obtain ⟨r, hr, rfl⟩ := hr
      exact h.follow { Follows.refl s with
        llmIdle := hr.idle_iff, conn := fun hc => hr.conn_eq ▸ hc } h.transport (hr.lawful h.llm) rfl h.batch
  | E_Send err he =>
      rcases eventsSent_eq err with hx | ⟨x, hx⟩
      · rw [hx]
        exact h.follow { Follows.refl s with events := nofun } h.transport h.llm rfl fun _ hb => nomatch hb
      · rw [hx]
        exact h.follow { Follows.refl s with events := nofun } h.transport h.llm rfl fun _ hb => nomatch hb
  | E_Act he | E_Acted he | E_Finish he _ =>
      exact h.follow { Follows.refl s with events := nofun } h.transport h.llm rfl fun _ hb => nomatch hb
  | E_Batch he hb =>
      obtain ⟨calls, t, hlaw⟩ := h.batch _ he
      refine h.follow { Follows.refl s with events := nofun } h.transport h.llm rfl ?_
      rintro b ⟨⟩
      exact ⟨calls, _, hlaw.core hb⟩
  | E_Exit he hx =>
      obtain ⟨hf, ht, hl, hctx, _, _⟩ := hx.follows
      exact h.follow { hf with events := nofun } (ht ▸ h.transport) (hl ▸ h.llm) hctx
        fun _ hb => nomatch hb

theorem Sound.fillerStep (h : Sound C s) (hs : FillerStep (phoneCall V C) s evs s') : Sound C s' := by
  cases hs with
  | F_Batch he hh =>
      obtain ⟨calls, t, hlaw⟩ := h.batch _ he
      refine h.follow { Follows.refl s with events := nofun } h.transport h.llm rfl ?_
      rintro b ⟨⟩
      exact ⟨calls, _, hlaw.hold hh⟩
  | F_Over _ _ _ hh => exact h.follow { Follows.refl s with } h.transport h.llm rfl h.batch

theorem Sound.adapterStep (h : Sound C s) (hs : AdapterStep (phoneCall V C) s evs s') : Sound C s' := by
  cases hs with
  | T_Tick ht =>
      have ht : ReaderTick _ _ s.transport _ _ := ht
      exact h.follow { Follows.refl s with transportIdle := ht.idle_iff } (ht.lawful h.transport) h.llm rfl h.batch
  | L_Tick hl =>
      obtain ⟨r, hr, rfl⟩ := hl
      exact h.follow { Follows.refl s with llmIdle := hr.idle_iff, conn := fun hc => hr.conn_eq ▸ hc } h.transport
        (hr.lawful h.llm) rfl h.batch

theorem Sound.envStep (h : Sound C s) (hs : EnvStep (phoneCall V C) s evs s') : Sound C s' := by
  cases hs with
  | N_Transport ht =>
      have ht : ReaderPeer s.transport _ := ht
      exact h.follow { Follows.refl s with transportIdle := by rw [ht.pc_eq] } (ht.lawful h.transport) h.llm rfl
        h.batch
  | N_LLM hl =>
      obtain ⟨r, hr, rfl⟩ := hl
      exact h.follow { Follows.refl s with
        llmIdle := by rw [hr.pc_eq], conn := fun hc => absurd hc hr.not_closed } h.transport (hr.lawful h.llm) rfl
        h.batch
  | @N_Context e hctx _ =>
      have hf : Follows s { s with ctx := some e, runCtx := s.runCtx.or (some e) } :=
        { Follows.refl s with runCtx := fun _ => by simp }
      exact ⟨h.transport, h.llm, fun _ => by simp, hf.phase h.phase, h.batch⟩

/-! ## The caller of `Run` -/

theorem OpenStep.reader_eq {setup : SetupRequest} {g g' : Gemini.State V} {x : Option (Option (Err V))}
    (h : Gemini.OpenStep setup g x g') : g'.reader.pc = g.reader.pc ∧ g'.reader.errs = g.reader.errs ∧
      g'.reader.conn = g.reader.conn ∧ (x = none → g'.openPc ≠ .opened) := by
  cases h <;> exact ⟨rfl, rfl, rfl, nofun⟩

theorem Sound.mainStep (h : Sound C s) (ho : Outcomes t s) (hs : MainStep (phoneCall V C) s evs s') :
    Sound C s' := by
  have hp := h.phase
  have hcancel : s.ctx.isSome → s.cancel.runCtx.isSome := fun _ => by simp [State.cancel]
  cases hs with
  | M_Resolved hm _ | M_Fail hm | M_Injected hm | M_CloseTransport hm | M_CloseLLM hm =>
      rw [hm] at hp
      exact ⟨h.transport, h.llm, h.context, hp, h.batch⟩
  | M_Unresolved hm _ | M_Done hm _ _ | M_Drained hm _ _ =>
      rw [hm] at hp
      exact ⟨h.transport, h.llm, h.context, hp.1, h.batch⟩
  | M_Failed hm =>
      rw [hm] at hp
      exact ⟨h.transport, h.llm, h.context, fun _ => hp, h.batch⟩
  | @M_Open l hm hl =>
      rw [hm] at hp
      have hl : Gemini.OpenStep _ s.llm _ _ := hl
      obtain ⟨hpc, herrs, hconn, hne⟩ := OpenStep.reader_eq hl
      have hlaw : l.reader.Lawful := by rw [Reader.Lawful, herrs, hpc]; exact h.llm
      refine ⟨h.transport, hlaw, h.context, ?_, h.batch⟩
      simp only [hm]
      exact ⟨⟨hp.1.1, hpc.trans hp.1.2⟩, hne rfl, hconn ▸ hp.2.2⟩
  | @M_Opened l hm hl | @M_OpenFailed l _ hm hl =>
      rw [hm] at hp
      have hl : Gemini.OpenStep _ s.llm _ _ := hl
      obtain ⟨hpc, herrs, _, _⟩ := OpenStep.reader_eq hl
      have hlaw : l.reader.Lawful := by rw [Reader.Lawful, herrs, hpc]; exact h.llm
      exact ⟨h.transport, hlaw, h.context, ⟨hp.1.1, hpc.trans hp.1.2⟩, h.batch⟩
  | M_Receive hm =>
      rw [hm] at hp
      have hnone := h.transport.errs_eq (by rw [hp.1]; exact id)
      exact ⟨fun hne => absurd hnone hne, h.llm, h.context, ⟨nofun, hp.2⟩, h.batch⟩
  | M_Events hm =>
      rw [hm] at hp
      have hnone := h.llm.errs_eq (by rw [hp.2]; exact id)
      exact ⟨h.transport, fun hne => absurd hnone hne, h.context, ⟨hp.1, nofun⟩, h.batch⟩
  | M_Start hm =>
      rw [hm] at hp
      exact ⟨h.transport, h.llm, h.context, ⟨hp, nofun, nofun⟩, fun _ hb => nomatch hb⟩
  | M_ContextDone hm _ =>
      rw [hm] at hp
      exact ⟨h.transport, h.llm, hcancel, hp, h.batch⟩
  | M_End hm =>
      have hended := ho.main
      rw [hm] at hended
      refine ⟨h.transport, h.llm, hcancel, fun he => ?_, h.batch⟩
      exact nomatch hended.1.symm.trans he

theorem Sound.step (h : Sound C s) (ho : Outcomes t s) (hs : Step (phoneCall V C) s evs s') : Sound C s' := by
  cases hs with
  | main hs => exact h.mainStep ho hs
  | audio hs => exact h.audioStep hs
  | events hs => exact h.eventsStep hs
  | filler hs => exact h.fillerStep hs
  | adapter hs => exact h.adapterStep hs
  | env hs => exact h.envStep hs

structure Reached (C : CallSetup) (t : List (Event V)) (s : CallState V) : Prop where
  outcomes : Outcomes t s
  sound : Sound C s

theorem Reached.step (h : Reached C t s) (hs : Step (phoneCall V C) s evs s') : Reached C (t ++ evs) s' :=
  ⟨h.outcomes.step hs, h.sound.step h.outcomes hs⟩

theorem Reached.run (hr : Run (Step (phoneCall V C)) CallState.init t s) : Reached C t s :=
  hr.invariant ⟨.init _ _, .init C⟩ fun _ _ _ _ h hs => h.step hs

end Gopkg.Voice
