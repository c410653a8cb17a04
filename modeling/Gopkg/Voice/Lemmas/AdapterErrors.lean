import Gopkg.Voice.Lemmas.PhoneCall

/-!
# The first error of an adapter

In a run whose steps are attentive, the first error that a read loop finds is the one that is recorded.
-/

namespace Gopkg.Voice

open Lts

variable {V : Type} {C : CallSetup} {t evs : List (Event V)} {s s' : CallState V} {e : Err V}

def AudioPc.Busy : AudioPc V → Prop
  | .exiting _ => False
  | _ => True

def EventsPc.Busy : EventsPc V → Prop
  | .exiting _ => False
  | _ => True

theorem AudioPc.Busy.not_exiting {pc : AudioPc V} (h : pc.Busy) (x : Exit V) : pc ≠ .exiting x := by
  rintro rfl
  exact h

theorem EventsPc.Busy.not_exiting {pc : EventsPc V} (h : pc.Busy) (x : Exit V) : pc ≠ .exiting x := by
  rintro rfl
  exact h

/-- Nothing has happened that ends the session. -/
structure Calm (s : CallState V) : Prop where
  ended : s.ended = none
  runCtx : s.runCtx = none
  transport : s.transport.pc.Working
  llm : s.llm.reader.pc.Working
  audio : s.audio.Busy
  events : s.events.Busy

/-- The error `e` of the transport is on its way, and nothing else ends the session. -/
structure TransportError (e : Err V) (s : CallState V) : Prop where
  ended : s.ended = none
  route : (s.transport.Pending e ∧ s.audio.Busy) ∨
    (s.transport.Silent ∧ s.audio = .exiting (.record .fatalError (some e)))
  llm : s.llm.reader.Silent
  events : s.events.Busy

/-- The error `e` of the LLM is on its way, and nothing else ends the session. -/
structure LLMError (e : Err V) (s : CallState V) : Prop where
  ended : s.ended = none
  route : (s.llm.reader.Pending e ∧ s.events.Busy) ∨
    (s.llm.reader.Silent ∧ s.events = .exiting (.record .fatalError (some e)))
  transport : s.transport.Silent
  audio : s.audio.Busy

/-- What the first terminal event says of the state, when it is none or an error of an adapter. -/
def ErrorAt (s : CallState V) : Option (Terminal V) → Prop
  | none => Calm s
  | some (.transport (.failed e)) => s.ended = some (.fatalError, some e) ∨ TransportError e s
  | some (.llm (.failed e)) => s.ended = some (.fatalError, some e) ∨ LLMError e s
  | _ => True

theorem firstTerminal_append (t evs : List (Event V)) :
    firstTerminal (t ++ evs) = (firstTerminal t).or (firstTerminal evs) :=
  List.findSome?_append

/-! ## Quiet steps -/

theorem audioAfter_busy (b : Bridge) (f : Frame) : (audioAfter b f : AudioPc V).Busy := by
  cases b <;> trivial

theorem dispatch_busy (b : Bridge) (n : Int) (ev : LLMEvent V) : (dispatch b n ev).Busy := by
  cases ev <;> cases b <;> trivial

theorem CoreStep.not_terminal {n : Nat} {b b' : Batch V} (h : CoreStep n b evs b') : firstTerminal evs = none := by
  cases h <;> rfl

theorem HoldStep.not_terminal {filler : Filler} {d hd : Bool} {h h' : HoldPc}
    (hs : HoldStep filler d hd h evs h') : firstTerminal evs = none := by
  cases hs <;> rfl

theorem Action.shows_not_terminal (p : Bool) (a : Action V) : firstTerminal [a.shows p] = none := by
  cases a <;> rfl

/-! ## Before the first terminal event -/

theorem Calm.mainStep (h : Calm s) (hr : Reached C t s) (hs : MainStep (phoneCall V C) s evs s')
    (hctx : s'.ctx = none) : ErrorAt s' (firstTerminal evs) := by
  have hm := hr.outcomes.main
  cases hs with
  | M_Unresolved _ _ | M_OpenFailed _ _ => trivial
  | M_Resolved _ _ | M_Fail _ | M_Failed _ | M_Injected _ => exact { h with }
  | M_Open _ ho | M_Opened _ ho =>
      have ho : Gemini.OpenStep _ s.llm _ _ := ho
      exact { h with llm := (OpenStep.reader_eq ho).1 ▸ h.llm }
  | M_Receive _ => exact { h with transport := trivial }
  | M_Events _ => exact { h with llm := trivial }
  | M_Start _ => exact { h with audio := trivial, events := trivial }
  | M_Done _ ha _ | M_Drained _ ha _ =>
      exact absurd ha (h.audio.not_exiting _)
  | M_ContextDone _ hc =>
      have hctx : s.ctx = none := hctx
      rw [hctx] at hc
      cases hc
  | M_CloseTransport hp | M_CloseLLM hp | M_End hp =>
      rw [hp] at hm
      exact nomatch h.ended.symm.trans hm.1

theorem Calm.audioStep (h : Calm s) (hr : Reached C t s) (hs : AudioStep (phoneCall V C) s evs s') :
    ErrorAt s' (firstTerminal evs) := by
  cases hs with
  | A_Frame _ _ hc =>
      obtain ⟨_, _, hw⟩ := ReaderRecv.working hc hr.sound.transport h.transport
      exact { h with transport := hw, audio := audioAfter_busy _ _ }
  | A_Closed _ hc | A_Error _ hc =>
      obtain ⟨_, hy, _⟩ := ReaderRecv.working hc hr.sound.transport h.transport
      cases hy
  | A_NoError _ hy hc =>
      obtain ⟨_, rfl, _⟩ := ReaderRecv.working hc hr.sound.transport h.transport
      rcases hy with hy | hy <;> cases hy
  | A_Send err _ =>
      cases err with
      | none => exact { h with audio := trivial }
      | some e => trivial
  | A_Exit ha _ =>
      exact absurd ha (h.audio.not_exiting _)

theorem Calm.eventsStep (h : Calm s) (hr : Reached C t s) (hs : EventsStep (phoneCall V C) s evs s') :
    ErrorAt s' (firstTerminal evs) := by
  cases hs with
  | E_Event _ _ hc =>
      obtain ⟨r, hc, rfl⟩ := hc
      obtain ⟨_, _, hw⟩ := hc.working hr.sound.llm h.llm
      exact { h with llm := hw, events := dispatch_busy _ _ _ }
  | E_Closed _ hc | E_Error _ hc =>
      obtain ⟨r, hc, rfl⟩ := hc
      obtain ⟨_, hy, _⟩ := hc.working hr.sound.llm h.llm
      cases hy
  | E_NoError _ hy hc =>
      obtain ⟨r, hc, rfl⟩ := hc
      obtain ⟨_, rfl, _⟩ := hc.working hr.sound.llm h.llm
      rcases hy with hy | hy <;> cases hy
  | E_Send err _ =>
      cases err with
      | none => exact { h with events := trivial }
      | some e => trivial
  | E_Act _ =>
      rw [Action.shows_not_terminal]
      exact { h with events := trivial }
  | E_Acted _ => exact { h with events := trivial }
  | E_Batch _ hb =>
      rw [hb.not_terminal]
      exact { h with events := trivial }
  | E_Finish _ _ => exact { h with events := trivial }
  | E_Exit he _ =>
      exact absurd he (h.events.not_exiting _)

theorem Calm.adapterStep (h : Calm s) (hr : Reached C t s) (hs : AdapterStep (phoneCall V C) s evs s') :
    ErrorAt s' (firstTerminal evs) := by
  have hd : s.done = false := by rw [State.done, h.runCtx]; rfl
  cases hs with
  | T_Tick ht =>
      have ht : ReaderTick _ s.done s.transport _ _ := ht
      rw [hd] at ht
      rcases ht.working h.transport with ⟨rfl, hw⟩ | rfl | ⟨e, rfl, hp⟩
      · exact { h with transport := hw }
      · trivial
      · exact .inr ⟨h.ended, .inl ⟨hp, h.audio⟩, hr.sound.llm.silent h.llm, h.events⟩
  | L_Tick hl =>
      obtain ⟨r, hl, rfl⟩ := hl
      rw [hd] at hl
      rcases hl.working h.llm with ⟨rfl, hw⟩ | rfl | ⟨e, rfl, hp⟩
      · exact { h with llm := hw }
      · trivial
      · exact .inr ⟨h.ended, .inl ⟨hp, h.events⟩, hr.sound.transport.silent h.transport, h.audio⟩

theorem Calm.step (h : Calm s) (hr : Reached C t s) (hs : Step (phoneCall V C) s evs s') (hctx : s'.ctx = none) :
    ErrorAt s' (firstTerminal evs) := by
  cases hs with
  | main hs => exact h.mainStep hr hs hctx
  | audio hs => exact h.audioStep hr hs
  | events hs => exact h.eventsStep hr hs
  | filler hs =>
      cases hs with
      | F_Batch _ hh =>
          rw [hh.not_terminal]
          exact { h with events := trivial }
      | F_Over _ _ _ hh =>
          rw [hh.not_terminal]
          exact { h with }
  | adapter hs => exact h.adapterStep hr hs
  | env hs =>
      cases hs with
      | N_Transport hp =>
          have hp : ReaderPeer s.transport _ := hp
          exact { h with transport := hp.pc_eq ▸ h.transport }
      | N_LLM hp =>
          obtain ⟨r, hp, rfl⟩ := hp
          exact { h with llm := hp.pc_eq ▸ h.llm }
      | N_Context _ _ => cases hctx

/-! ## An error of the transport -/

theorem TransportError.underWay (h : TransportError e s) : s.UnderWay := by
  rcases h.route with ⟨hp, _⟩ | ⟨_, ha⟩
  · exact ⟨e, .inl hp⟩
  · exact ⟨e, .inr (.inr (.inl ha))⟩

/-- An error is on its way when the streams have been started and the goroutines are not gone. -/
theorem TransportError.started (h : TransportError e s) (hr : Reached C t s) :
    s.transport.pc ≠ .idle ∨ s.main.Waits := by
  rcases h.route with ⟨hp, _⟩ | ⟨_, ha⟩
  · refine .inl fun hidle => hp.not_working hr.sound.transport ?_
    rw [hidle]
    trivial
  · exact .inr (hr.outcomes.waits_of_audio (by rw [ha]; exact id))

theorem TransportError.mainStep (h : TransportError e s) (hr : Reached C t s)
    (hs : MainStep (phoneCall V C) s evs s') (hctx : s'.ctx = none) : TransportError e s' := by
  have hm := hr.outcomes.main
  have hphase := hr.sound.phase
  have hstarted := h.started hr
  have hopen : ∀ {x : Option (Option (Err V))} {g : Gemini.State V}, Gemini.OpenStep C.setup s.llm x g →
      g.reader.Silent := by
    intro x g ho
    obtain ⟨hpc, herrs, _⟩ := OpenStep.reader_eq ho
    intro e'
    rw [Reader.Pending, hpc, herrs]
    exact h.llm e'
  cases hs with
  | M_Resolved _ _ | M_Unresolved _ _ | M_Fail _ | M_Failed _ | M_Injected _ => exact { h with }
  | M_Open _ ho | M_Opened _ ho | M_OpenFailed _ ho => exact { h with llm := hopen ho }
  | M_Receive hp =>
      rw [hp] at hphase hstarted
      exact hstarted.elim (fun hi => absurd hphase.1 hi) False.elim
  | M_Events hp =>
      rw [hp] at hphase
      have hnone := hr.sound.llm.errs_eq (by rw [hphase.2]; exact id)
      exact { h with llm := fun e' hpend => hpend.elim nofun fun he => nomatch hnone.symm.trans he }
  | M_Start hp =>
      rcases h.route with ⟨hpend, _⟩ | ⟨_, ha⟩
      · exact { h with route := .inl ⟨hpend, trivial⟩, events := trivial }
      · have hw := hr.outcomes.waits_of_audio (by rw [ha]; exact id)
        rw [hp] at hw
        exact hw.elim
  | M_Done _ _ he | M_Drained _ _ he =>
      exact absurd he (h.events.not_exiting _)
  | M_ContextDone _ hc =>
      have hctx : s.ctx = none := hctx
      rw [hctx] at hc
      cases hc
  | M_CloseTransport hp | M_CloseLLM hp | M_End hp =>
      rw [hp] at hm
      exact nomatch h.ended.symm.trans hm.1

theorem recordEnd_first (hended : s.ended = none) (hctx : s.ctx = none) (r : EndReason) (e : Option (Err V)) :
    (s.recordEnd r e).ended = some (r, e) := by
  simp [State.recordEnd, hended, hctx]

theorem TransportError.audioStep (h : TransportError e s) (hr : Reached C t s)
    (hs : AudioStep (phoneCall V C) s evs s') (ha : Attentive s evs s') (hctx : s.ctx = none) :
    s'.ended = some (.fatalError, some e) ∨ TransportError e s' := by
  obtain ⟨hcomp, hclosed, _⟩ := ha h.ended h.underWay
  -- what the select of the goroutine can find
  have hrecv : ∀ {y : Recv Frame V} {x : Twilio.State V}, s.audio = .select → ReaderRecv s.transport y x →
      y = .closed ∨ (y = .error e ∧ x.Silent) := by
    intro y x hsel hc
    rcases h.route with ⟨hp, _⟩ | ⟨_, hx⟩
    · exact hc.pending hr.sound.transport hp
    · exact nomatch hsel.symm.trans hx
  cases hs with
  | A_Frame hsel _ hc =>
      rcases hrecv hsel hc with hy | ⟨hy, _⟩ <;> cases hy
  | A_Closed hsel _ => exact absurd rfl (hclosed hsel)
  | A_Error hsel hc =>
      rcases hrecv hsel hc with hy | ⟨hy, hsilent⟩
      · cases hy
      · cases hy
        exact .inr { h with route := .inr ⟨hsilent, rfl⟩ }
  | A_NoError hsel hy hc =>
      rcases hrecv hsel hc with rfl | ⟨rfl, _⟩ <;> rcases hy with hy | hy <;> cases hy
  | A_Send err hsend =>
      rcases h.route with ⟨hp, _⟩ | ⟨_, hx⟩
      · cases err with
        | none => exact .inr { h with route := .inl ⟨hp, trivial⟩ }
        | some e' => exact absurd trivial (hcomp _ List.mem_cons_self)
      · exact nomatch hsend.symm.trans hx
  | A_Exit hx hstep =>
      rcases h.route with ⟨_, hbusy⟩ | ⟨_, hrec⟩
      · exact absurd hx (hbusy.not_exiting _)
      · cases hx.symm.trans hrec
        cases hstep
        exact .inl (recordEnd_first h.ended hctx _ _)

theorem TransportError.eventsStep (h : TransportError e s) (hs : EventsStep (phoneCall V C) s evs s')
    (ha : Attentive s evs s') : TransportError e s' := by
  obtain ⟨hcomp, _, hclosed⟩ := ha h.ended h.underWay
  cases hs with
  | E_Event _ _ hc =>
      obtain ⟨r, hc, rfl⟩ := hc
      exact { h with llm := (hc.silent h.llm).2, events := dispatch_busy _ _ _ }
  | E_Closed hsel _ => exact absurd rfl (hclosed hsel)
  | E_Error _ hc =>
      obtain ⟨r, hc, rfl⟩ := hc
      exact absurd rfl ((hc.silent h.llm).1 _)
  | E_NoError _ _ hc =>
      obtain ⟨r, hc, rfl⟩ := hc
      exact { h with llm := (hc.silent h.llm).2 }
  | E_Send err _ =>
      cases err with
      | none => exact { h with events := trivial }
      | some e' => exact absurd trivial (hcomp _ List.mem_cons_self)
  | E_Act _ => exact { h with events := trivial }
  | E_Acted _ => exact { h with events := trivial }
  | E_Batch _ _ => exact { h with events := trivial }
  | E_Finish _ _ => exact { h with events := trivial }
  | E_Exit he _ =>
      exact absurd he (h.events.not_exiting _)

theorem TransportError.adapterStep (h : TransportError e s) (hr : Reached C t s)
    (hs : AdapterStep (phoneCall V C) s evs s') (ha : Attentive s evs s') : TransportError e s' := by
  obtain ⟨hcomp, _, _⟩ := ha h.ended h.underWay
  cases hs with
  | @T_Tick x y ht =>
      have ht : ReaderTick _ s.done s.transport _ _ := ht
      rcases h.route with ⟨hp, hbusy⟩ | ⟨hsilent, hx⟩
      · exact { h with route := .inl ⟨(ht.pending hr.sound.transport hp).2, hbusy⟩ }
      · refine { h with route := .inr ⟨ht.silent hsilent ?_, hx⟩ }
        rintro e' rfl
        exact hcomp _ List.mem_cons_self trivial
  | @L_Tick x y hl =>
      obtain ⟨r, hl, rfl⟩ := hl
      refine { h with llm := hl.silent h.llm ?_ }
      rintro e' rfl
      exact hcomp _ List.mem_cons_self trivial

theorem TransportError.step (h : TransportError e s) (hr : Reached C t s) (hs : Step (phoneCall V C) s evs s')
    (ha : Attentive s evs s') (hctx : s'.ctx = none) (hctx₀ : s.ctx = none) :
    s'.ended = some (.fatalError, some e) ∨ TransportError e s' := by
  cases hs with
  | main hs => exact .inr (h.mainStep hr hs hctx)
  | audio hs => exact h.audioStep hr hs ha hctx₀
  | events hs => exact .inr (h.eventsStep hs ha)
  | filler hs =>
      cases hs with
      | F_Batch _ _ => exact .inr { h with events := trivial }
      | F_Over _ _ _ _ => exact .inr { h with }
  | adapter hs => exact .inr (h.adapterStep hr hs ha)
  | env hs =>
      cases hs with
      | N_Transport hp =>
          have hp : ReaderPeer s.transport _ := hp
          refine .inr { h with route := h.route.imp (And.imp_left hp.pending_iff.mpr) (And.imp_left ?_) }
          exact fun hsilent e' hpend => hsilent e' (hp.pending_iff.mp hpend)
      | N_LLM hp =>
          obtain ⟨r, hp, rfl⟩ := hp
          exact .inr { h with llm := fun e' hpend => h.llm e' (hp.pending_iff.mp hpend) }
      | N_Context _ _ => cases hctx

/-! ## An error of the LLM -/

theorem LLMError.underWay (h : LLMError e s) : s.UnderWay := by
  rcases h.route with ⟨hp, _⟩ | ⟨_, he⟩
  · exact ⟨e, .inr (.inl hp)⟩
  · exact ⟨e, .inr (.inr (.inr he))⟩

theorem LLMError.started (h : LLMError e s) (hr : Reached C t s) : s.llm.reader.pc ≠ .idle ∨ s.main.Waits := by
  rcases h.route with ⟨hp, _⟩ | ⟨_, he⟩
  · refine .inl fun hidle => hp.not_working hr.sound.llm ?_
    rw [hidle]
    trivial
  · exact .inr (hr.outcomes.waits_of_events (by rw [he]; exact id))

/-- Before `LLM.Events` no error of the LLM is on its way. -/
theorem LLMError.not_unstarted (h : LLMError e s) (hr : Reached C t s) (hpc : s.llm.reader.pc = .idle) :
    s.main.Waits :=
  (h.started hr).resolve_left fun hi => hi hpc

theorem LLMError.mainStep (h : LLMError e s) (hr : Reached C t s) (hs : MainStep (phoneCall V C) s evs s')
    (hctx : s'.ctx = none) : LLMError e s' := by
  have hm := hr.outcomes.main
  have hphase := hr.sound.phase
  cases hs with
  | M_Resolved hp _ | M_Unresolved hp _ | M_Open hp _ | M_Opened hp _ | M_OpenFailed hp _ =>
      rw [hp] at hphase
      have hw := h.not_unstarted hr hphase.1.2
      rw [hp] at hw
      exact hw.elim
  | M_Receive hp | M_Events hp =>
      rw [hp] at hphase
      have hw := h.not_unstarted hr hphase.2
      rw [hp] at hw
      exact hw.elim
  | M_Fail _ | M_Failed _ | M_Injected _ => exact { h with }
  | M_Start hp =>
      rcases h.route with ⟨hpend, _⟩ | ⟨_, he⟩
      · exact { h with route := .inl ⟨hpend, trivial⟩, audio := trivial }
      · have hw := hr.outcomes.waits_of_events (by rw [he]; exact id)
        rw [hp] at hw
        exact hw.elim
  | M_Done _ ha _ | M_Drained _ ha _ =>
      exact absurd ha (h.audio.not_exiting _)
  | M_ContextDone _ hc =>
      have hctx : s.ctx = none := hctx
      rw [hctx] at hc
      cases hc
  | M_CloseTransport hp | M_CloseLLM hp | M_End hp =>
      rw [hp] at hm
      exact nomatch h.ended.symm.trans hm.1

theorem LLMError.audioStep (h : LLMError e s) (hs : AudioStep (phoneCall V C) s evs s')
    (ha : Attentive s evs s') : LLMError e s' := by
  obtain ⟨hcomp, hclosed, _⟩ := ha h.ended h.underWay
  cases hs with
  | A_Frame _ _ hc =>
      exact { h with transport := (ReaderRecv.silent hc h.transport).2, audio := audioAfter_busy _ _ }
  | A_Closed hsel _ => exact absurd rfl (hclosed hsel)
  | A_Error _ hc => exact absurd rfl ((ReaderRecv.silent hc h.transport).1 _)
  | A_NoError _ _ hc => exact { h with transport := (ReaderRecv.silent hc h.transport).2 }
  | A_Send err _ =>
      cases err with
      | none => exact { h with audio := trivial }
      | some e' => exact absurd trivial (hcomp _ List.mem_cons_self)
  | A_Exit hx _ =>
      exact absurd hx (h.audio.not_exiting _)

theorem LLMError.eventsStep (h : LLMError e s) (hr : Reached C t s) (hs : EventsStep (phoneCall V C) s evs s')
    (ha : Attentive s evs s') (hctx : s.ctx = none) :
    s'.ended = some (.fatalError, some e) ∨ LLMError e s' := by
  obtain ⟨hcomp, _, hclosed⟩ := ha h.ended h.underWay
  -- what the select of the goroutine can find
  have hrecv : ∀ {y : Recv (LLMEvent V) V} {g : Gemini.State V}, s.events = .select →
      (phoneCall V C).llm.recv s.done s.llm y g → y = .closed ∨ (y = .error e ∧ g.reader.Silent) := by
    rintro y g hsel ⟨r, hc, rfl⟩
    rcases h.route with ⟨hp, _⟩ | ⟨_, hx⟩
    · exact hc.pending hr.sound.llm hp
    · exact nomatch hsel.symm.trans hx
  have hbusy : ∀ {p : EventsPc V}, s.events = p → p.Busy → s.llm.reader.Pending e := by
    intro p hp hb
    rcases h.route with ⟨hpend, _⟩ | ⟨_, hx⟩
    · exact hpend
    · rw [← hp, hx] at hb
      exact hb.elim
  cases hs with
  | E_Event hsel _ hc =>
      rcases hrecv hsel hc with hy | ⟨hy, _⟩ <;> cases hy
  | E_Closed hsel _ => exact absurd rfl (hclosed hsel)
  | E_Error hsel hc =>
      rcases hrecv hsel hc with hy | ⟨hy, hsilent⟩
      · cases hy
      · cases hy
        exact .inr { h with route := .inr ⟨hsilent, rfl⟩ }
  | E_NoError hsel hy hc =>
      rcases hrecv hsel hc with rfl | ⟨rfl, _⟩ <;> rcases hy with hy | hy <;> cases hy
  | E_Send err he =>
      cases err with
      | none => exact .inr { h with route := .inl ⟨hbusy he trivial, trivial⟩ }
      | some e' => exact absurd trivial (hcomp _ List.mem_cons_self)
  | E_Act he => exact .inr { h with route := .inl ⟨hbusy he trivial, trivial⟩ }
  | E_Acted he => exact .inr { h with route := .inl ⟨hbusy he trivial, trivial⟩ }
  | E_Batch he _ => exact .inr { h with route := .inl ⟨hbusy he trivial, trivial⟩ }
  | E_Finish he _ => exact .inr { h with route := .inl ⟨hbusy he trivial, trivial⟩ }
  | E_Exit hx hstep =>
      rcases h.route with ⟨_, hb⟩ | ⟨_, hrec⟩
      · exact absurd hx (hb.not_exiting _)
      · cases hx.symm.trans hrec
        cases hstep
        exact .inl (recordEnd_first h.ended hctx _ _)

theorem LLMError.adapterStep (h : LLMError e s) (hr : Reached C t s)
    (hs : AdapterStep (phoneCall V C) s evs s') (ha : Attentive s evs s') : LLMError e s' := by
  obtain ⟨hcomp, _, _⟩ := ha h.ended h.underWay
  cases hs with
  | @T_Tick x y ht =>
      have ht : ReaderTick _ s.done s.transport _ _ := ht
      refine { h with transport := ht.silent h.transport ?_ }
      rintro e' rfl
      exact hcomp _ List.mem_cons_self trivial
  | @L_Tick x y hl =>
      obtain ⟨r, hl, rfl⟩ := hl
      rcases h.route with ⟨hp, hbusy⟩ | ⟨hsilent, hx⟩
      · exact { h with route := .inl ⟨(hl.pending hr.sound.llm hp).2, hbusy⟩ }
      · refine { h with route := .inr ⟨hl.silent hsilent ?_, hx⟩ }
        rintro e' rfl
        exact hcomp _ List.mem_cons_self trivial

theorem LLMError.step (h : LLMError e s) (hr : Reached C t s) (hs : Step (phoneCall V C) s evs s')
    (ha : Attentive s evs s') (hctx : s'.ctx = none) (hctx₀ : s.ctx = none) :
    s'.ended = some (.fatalError, some e) ∨ LLMError e s' := by
  cases hs with
  | main hs => exact .inr (h.mainStep hr hs hctx)
  | audio hs => exact .inr (h.audioStep hs ha)
  | events hs => exact h.eventsStep hr hs ha hctx₀
  | filler hs =>
      cases hs with
      | @F_Batch b _ _ he _ =>
          rcases h.route with ⟨hp, _⟩ | ⟨_, hx⟩
          · exact .inr { h with route := .inl ⟨hp, trivial⟩ }
          · exact nomatch he.symm.trans hx
      | F_Over _ _ _ _ => exact .inr { h with }
  | adapter hs => exact .inr (h.adapterStep hr hs ha)
  | env hs =>
      cases hs with
      | N_Transport hp =>
          have hp : ReaderPeer s.transport _ := hp
          exact .inr { h with transport := fun e' hpend => h.transport e' (hp.pending_iff.mp hpend) }
      | N_LLM hp =>
          obtain ⟨r, hp, rfl⟩ := hp
          refine .inr { h with route := h.route.imp (And.imp_left hp.pending_iff.mpr) (And.imp_left ?_) }
          exact fun hsilent e' hpend => hsilent e' (hp.pending_iff.mp hpend)
      | N_Context _ _ => cases hctx

/-! ## Runs -/

theorem Step.ctx_none (hs : Step (phoneCall V C) s evs s') (h : s'.ctx = none) : s.ctx = none := by
  have hexit : ∀ {s₁ : CallState V} {y y' : Exit V}, ExitStep s y evs s₁ y' → s₁.ctx = s.ctx := by
    intro s₁ y y' hx
    cases hx <;> rfl
  cases hs with
  | main hs => cases hs <;> exact h
  | audio hs =>
      cases hs with
      | A_Exit _ hx => exact (hexit hx).symm.trans h
      | A_Frame _ _ _ | A_Closed _ _ | A_Error _ _ | A_NoError _ _ _ | A_Send _ _ => exact h
  | events hs =>
      cases hs with
      | E_Exit _ hx => exact (hexit hx).symm.trans h
      | E_Event _ _ _ | E_Closed _ _ | E_Error _ _ | E_NoError _ _ _ | E_Send _ _ | E_Act _ | E_Acted _
      | E_Batch _ _ | E_Finish _ _ => exact h
  | filler hs => cases hs <;> exact h
  | adapter hs => cases hs <;> exact h
  | env hs =>
      cases hs with
      | N_Context _ _ => cases h
      | N_Transport _ | N_LLM _ => exact h

/-- The invariant of attentive runs. -/
structure Heard (C : CallSetup) (t : List (Event V)) (s : CallState V) : Prop where
  reached : Reached C t s
  error : s.ctx = none → ErrorAt s (firstTerminal t)

theorem Heard.step (h : Heard C t s) (hs : Restrict (Step (phoneCall V C)) Attentive s evs s') :
    Heard C (t ++ evs) s' := by
  obtain ⟨hs, ha⟩ := hs
  refine ⟨h.reached.step hs, fun hctx => ?_⟩
  have hctx₀ := hs.ctx_none hctx
  have hlaw := h.error hctx₀
  rw [firstTerminal_append]
  match hf : firstTerminal t with
  | none =>
      rw [hf] at hlaw
      rw [Option.none_or]
      exact hlaw.step h.reached hs hctx
  | some (.transport (.failed e)) =>
      rw [hf] at hlaw
      rcases hlaw with hended | herr
      · exact .inl (hs.ended_eq hended)
      · exact herr.step h.reached hs ha hctx hctx₀
  | some (.llm (.failed e)) =>
      rw [hf] at hlaw
      rcases hlaw with hended | herr
      · exact .inl (hs.ended_eq hended)
      · exact herr.step h.reached hs ha hctx hctx₀
  | some (.transport .clean) | some (.llm .clean) | some .other => trivial

theorem Heard.run (hr : Run (Restrict (Step (phoneCall V C)) Attentive) CallState.init t s) : Heard C t s := by
  refine hr.invariant ⟨⟨.init _ _, .init C⟩, fun _ => ?_⟩ fun _ _ _ _ h hs => h.step hs
  exact ⟨rfl, rfl, trivial, trivial, trivial, trivial⟩

/-- Before the first terminal event every step is attentive. -/
theorem Calm.attentive (h : Calm s) (hr : Reached C t s) : Attentive s evs s' := by
  rintro _ ⟨e, hp | hp | ha | he⟩
  · exact absurd hp (hr.sound.transport.silent h.transport e)
  · exact absurd hp (hr.sound.llm.silent h.llm e)
  · exact absurd ha (h.audio.not_exiting _)
  · exact absurd he (h.events.not_exiting _)

theorem attentive_of_calm (hr : Run (Step (phoneCall V C)) CallState.init t s) (ht : firstTerminal t = none)
    (hctx : s.ctx = none) : Run (Restrict (Step (phoneCall V C)) Attentive) CallState.init t s ∧ Calm s := by
  have hcalm : ∀ {t : List (Event V)} {s : CallState V}, firstTerminal t = none → s.ctx = none →
      Run (Restrict (Step (phoneCall V C)) Attentive) CallState.init t s → Calm s := by
    intro t s ht hctx hr
    have hlaw := (Heard.run hr).error hctx
    rwa [ht] at hlaw
  induction hr with
  | refl => exact ⟨.refl, hcalm rfl rfl .refl⟩
  | snoc hr hs ih =>
      rw [firstTerminal_append, Option.or_eq_none_iff] at ht
      obtain ⟨hrun, h⟩ := ih ht.1 (hs.ctx_none hctx)
      have hrun' := hrun.snoc ⟨hs, h.attentive (Reached.run hr)⟩
      exact ⟨hrun', hcalm (by rw [firstTerminal_append, ht.1, ht.2]; rfl) hctx hrun'⟩

end Gopkg.Voice
