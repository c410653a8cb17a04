import Gopkg.Voice.Lemmas.PhoneCall

/-!
# Calls that cannot move

When the caller's context is done, a call that `Run` has not ended can move unless it is stuck.
-/

namespace Gopkg.Voice

variable {V : Type} {C : CallSetup} {t evs : List (Event V)} {s s' : CallState V}

/-! ## Stuck calls do not move -/

theorem ExitStep.not_gone {x' : Exit V} : ¬ ExitStep s .gone evs s' x' := nofun

theorem CallState.AudioParked.not_step (h : s.AudioParked) (hl : s.transport.Lawful) :
    ¬ AudioStep (phoneCall V C) s evs s' := by
  intro hs
  rcases h with ⟨ha, _⟩ | ⟨ha, hpark⟩
  · cases hs with
    | A_Frame h _ _ | A_Closed h _ | A_Error h _ | A_NoError h _ _ | A_Send _ h => rw [ha] at h; cases h
    | A_Exit h hx =>
        rw [ha] at h
        cases h
        exact ExitStep.not_gone hx
  · cases hs with
    | A_Frame _ _ hr => exact hpark.not_recv hl hr
    | A_Closed _ hr | A_Error _ hr | A_NoError _ _ hr => exact hpark.not_recv hl hr
    | A_Send _ h | A_Exit h _ => rw [ha] at h; cases h

theorem CallState.EventsParked.not_step (h : s.EventsParked) (hl : s.llm.reader.Lawful) :
    ¬ EventsStep (phoneCall V C) s evs s' := by
  intro hs
  rcases h with ⟨he, _⟩ | ⟨he, hpark⟩
  · cases hs with
    | E_Event h _ _ | E_Closed h _ | E_Error h _ | E_NoError h _ _ | E_Send _ h | E_Act h | E_Acted h
    | E_Batch h _ | E_Finish h _ => rw [he] at h; cases h
    | E_Exit h hx =>
        rw [he] at h
        cases h
        exact ExitStep.not_gone hx
  · cases hs with
    | E_Event _ _ hr | E_Closed _ hr | E_Error _ hr | E_NoError _ _ hr =>
        obtain ⟨r, hr, _⟩ := hr
        exact hpark.not_recv hl hr
    | E_Send _ h | E_Act h | E_Acted h | E_Batch h _ | E_Finish h _ | E_Exit h _ => rw [he] at h; cases h

theorem CallState.AudioParked.reader (h : s.AudioParked) : s.transport.Parked ∨ s.transport.pc = .exited := by
  rcases h with ⟨_, h⟩ | ⟨_, h⟩
  · exact h
  · exact .inl h

theorem CallState.EventsParked.reader (h : s.EventsParked) :
    s.llm.reader.Parked ∨ s.llm.reader.pc = .exited := by
  rcases h with ⟨_, h⟩ | ⟨_, h⟩
  · exact h
  · exact .inl h

theorem AdapterStep.moving (h : AdapterStep (phoneCall V C) s evs s') :
    (s.transport.pc ≠ .idle ∧ ¬ s.transport.Parked ∧ s.transport.pc ≠ .exited) ∨
      (s.llm.reader.pc ≠ .idle ∧ ¬ s.llm.reader.Parked ∧ s.llm.reader.pc ≠ .exited) := by
  cases h with
  | T_Tick ht =>
      have ht : ReaderTick _ _ s.transport _ _ := ht
      exact .inl ⟨ht.started.1, fun hp => hp.not_tick ht, fun hx => Reader.not_tick_of_exited hx ht⟩
  | L_Tick hl =>
      obtain ⟨r, ht, _⟩ := hl
      exact .inr ⟨ht.started.1, fun hp => hp.not_tick ht, fun hx => Reader.not_tick_of_exited hx ht⟩

/-- `Open` reads `setupComplete` from a peer that sends nothing. -/
theorem not_openStep {setup : SetupRequest} {g g' : Gemini.State V} {x : Option (Option (Err V))}
    (hpc : g.openPc = .awaiting) (hin : g.reader.inbox = []) (hconn : g.reader.conn = .live) :
    ¬ Gemini.OpenStep setup g x g' := by
  intro h
  cases h with
  | O_Setup h | O_SetupFailed h | O_Replay h | O_ReplayFailed h | O_Opened h => rw [hpc] at h; cases h
  | O_Complete _ h _ | O_Unexpected _ h _ | O_Malformed _ h => rw [hin] at h; cases h
  | O_ReadFailed _ _ h => rw [hconn] at h; cases h

theorem not_localStep_opening (h : Reached C t s) (hm : s.main = .opening) (hpc : s.llm.openPc = .awaiting)
    (hin : s.llm.reader.inbox = []) (hconn : s.llm.reader.conn = .live) : ¬ LocalStep C s evs s' := by
  have hphase := h.sound.phase
  rw [hm] at hphase
  intro hs
  cases hs with
  | main hs =>
      cases hs with
      | M_Open _ ho | M_Opened _ ho | M_OpenFailed _ ho => exact not_openStep hpc hin hconn ho
      | M_Resolved h _ | M_Unresolved h _ | M_Fail h | M_Failed h | M_Injected h | M_Receive h | M_Events h
      | M_Start h | M_Done h _ _ | M_ContextDone h _ | M_Drained h _ _ | M_CloseTransport h | M_CloseLLM h
      | M_End h => rw [hm] at h; cases h
  | audio hs =>
      have := h.outcomes.waits_of_audio hs.not_off
      rw [hm] at this
      exact this
  | events hs =>
      have := h.outcomes.waits_of_events hs.not_off
      rw [hm] at this
      exact this
  | adapter hs =>
      rcases hs.moving with ⟨hi, _⟩ | ⟨hi, _⟩
      · exact hi hphase.1.1
      · exact hi hphase.1.2

theorem CallState.Stuck.not_localStep (h : Reached C t s) (hstuck : s.Stuck) : ¬ LocalStep C s evs s' := by
  rcases hstuck with ⟨hm, hpc, hin, hconn⟩ | ⟨hm, ha, he, hgone⟩
  · exact not_localStep_opening h hm hpc hin hconn
  · intro hs
    cases hs with
    | main hs =>
        cases hs with
        | M_Drained _ hga hge => exact hgone ⟨hga, hge⟩
        | M_Resolved h _ | M_Unresolved h _ | M_Fail h | M_Failed h | M_Open h _ | M_Opened h _
        | M_OpenFailed h _ | M_Injected h | M_Receive h | M_Events h | M_Start h | M_Done h _ _
        | M_ContextDone h _ | M_CloseTransport h | M_CloseLLM h | M_End h => rw [hm] at h; cases h
    | audio hs => exact ha.not_step h.sound.transport hs
    | events hs => exact he.not_step h.sound.llm hs
    | adapter hs =>
        rcases hs.moving with ⟨_, hp, hx⟩ | ⟨_, hp, hx⟩
        · exact ha.reader.elim hp hx
        · exact he.reader.elim hp hx

/-! ## All other calls do -/

theorem localStep_tick_transport (hd : s.done = true) {x : Option (Ending V)} {r : Twilio.State V}
    (h : ReaderTick Twilio.readLoop true s.transport x r) : ∃ evs s', LocalStep C s evs s' := by
  rw [← hd] at h
  exact ⟨_, _, .adapter (.T_Tick h)⟩

theorem localStep_tick_llm (hd : s.done = true) {x : Option (Ending V)}
    {r : Reader (Option (Gemini.ServerMessage V)) (LLMEvent V) (LLMEvent V) String V}
    (h : ReaderTick Gemini.readLoop true s.llm.reader x r) : ∃ evs s', LocalStep C s evs s' := by
  rw [← hd] at h
  exact ⟨_, _, .adapter (.L_Tick ⟨r, h, rfl⟩)⟩

theorem audio_moves (h : Reached C t s) (hd : s.done = true) (hpc : s.transport.pc ≠ .idle)
    (ha : s.audio ≠ .idle) : (∃ evs s', LocalStep C s evs s') ∨ s.AudioParked := by
  have hreader := Reader.moves (L := Twilio.readLoop) h.sound.transport hpc
  cases hs : s.audio with
  | idle => exact absurd hs ha
  | select =>
      rcases hreader with ⟨x, r, ht⟩ | hp | hx
      · exact .inl (localStep_tick_transport hd ht)
      · exact .inr (.inr ⟨hs, hp⟩)
      · exact .inl ⟨_, _, .audio (.A_Closed hs (.C_Closed hx))⟩
  | sending f => exact .inl ⟨_, _, .audio (.A_Send none hs)⟩
  | exiting x =>
      by_cases hx : x = .gone
      · subst hx
        rcases hreader with ⟨x, r, ht⟩ | hp
        · exact .inl (localStep_tick_transport hd ht)
        · exact .inr (.inl ⟨hs, hp⟩)
      · obtain ⟨evs, s', x', hstep⟩ := ExitStep.exists s hx
        exact .inl ⟨_, _, .audio (.A_Exit hs hstep)⟩

theorem batch_moves (h : Reached C t s) {b : Batch V} (hs : s.events = .batch b) :
    ∃ evs s', LocalStep C s evs s' := by
  obtain ⟨calls, t, hlaw⟩ := h.sound.batch b hs
  by_cases hpc : b.pc = .finished
  · exact ⟨_, _, .events (.E_Finish hs hpc)⟩
  · obtain ⟨evs, b', hb⟩ := hlaw.progress C.positive hpc
    exact ⟨_, _, .events (.E_Batch hs hb)⟩

theorem events_moves (h : Reached C t s) (hd : s.done = true) (hpc : s.llm.reader.pc ≠ .idle)
    (he : s.events ≠ .idle) : (∃ evs s', LocalStep C s evs s') ∨ s.EventsParked := by
  have hreader := Reader.moves (L := Gemini.readLoop) h.sound.llm hpc
  cases hs : s.events with
  | idle => exact absurd hs he
  | select =>
      rcases hreader with ⟨x, r, ht⟩ | hp | hx
      · exact .inl (localStep_tick_llm hd ht)
      · exact .inr (.inr ⟨hs, hp⟩)
      · exact .inl ⟨_, _, .events (.E_Closed hs ⟨_, .C_Closed hx, rfl⟩)⟩
  | sending f => exact .inl ⟨_, _, .events (.E_Send none hs)⟩
  | acting as =>
      cases as with
      | nil => exact .inl ⟨_, _, .events (.E_Acted hs)⟩
      | cons a as => exact .inl ⟨_, _, .events (.E_Act (p := false) hs)⟩
  | batch b => exact .inl (batch_moves h hs)
  | exiting x =>
      by_cases hx : x = .gone
      · subst hx
        rcases hreader with ⟨x, r, ht⟩ | hp
        · exact .inl (localStep_tick_llm hd ht)
        · exact .inr (.inl ⟨hs, hp⟩)
      · obtain ⟨evs, s', x', hstep⟩ := ExitStep.exists s hx
        exact .inl ⟨_, _, .events (.E_Exit hs hstep)⟩

/-- `Open` can move, unless it waits for `setupComplete`. -/
theorem openStep_exists (setup : SetupRequest) {g : Gemini.State V} (hpc : g.openPc ≠ .opened)
    (hconn : g.reader.conn ≠ .closed) : (∃ x g', Gemini.OpenStep setup g x g') ∨
      (g.openPc = .awaiting ∧ g.reader.inbox = [] ∧ g.reader.conn = .live) := by
  cases hs : g.openPc with
  | setup => exact .inl ⟨_, _, .O_Setup hs⟩
  | awaiting =>
      cases hin : g.reader.inbox with
      | nil =>
          cases hc : g.reader.conn with
          | live => exact .inr ⟨rfl, rfl, rfl⟩
          | ended x => exact .inl ⟨_, _, .O_ReadFailed (e := .canceled) hs hin hc⟩
          | closed => exact absurd hc hconn
      | cons m ms =>
          cases m with
          | none => exact .inl ⟨_, _, .O_Malformed (e := .canceled) hs hin⟩
          | some m =>
              cases hsetup : m.setupComplete with
              | true => exact .inl ⟨_, _, .O_Complete hs hin hsetup⟩
              | false => exact .inl ⟨_, _, .O_Unexpected (e := .canceled) hs hin hsetup⟩
  | replaying texts =>
      cases texts with
      | nil => exact .inl ⟨_, _, .O_Opened hs⟩
      | cons text texts => exact .inl ⟨_, _, .O_Replay hs⟩
  | opened => exact absurd hs hpc

theorem opening_moves (hm : s.main = .opening) {x : Option (Option (Err V))} {g : Gemini.State V}
    (h : Gemini.OpenStep C.setup s.llm x g) : ∃ evs s', LocalStep C s evs s' := by
  match x, h with
  | none, h => exact ⟨_, _, .main (.M_Open hm h)⟩
  | some none, h => exact ⟨_, _, .main (.M_Opened hm h)⟩
  | some (some e), h => exact ⟨_, _, .main (.M_OpenFailed hm h)⟩

theorem localStep_of_not_stuck (h : Reached C t s) (hctx : s.ctx.isSome) (hret : ∀ e, s.main ≠ .returned e)
    (hstuck : ¬ s.Stuck) : ∃ evs s', LocalStep C s evs s' := by
  have hd : s.done = true := h.sound.context hctx
  have hphase := h.sound.phase
  cases hm : s.main with
  | resolving => exact ⟨_, _, .main (.M_Resolved hm (bridges_phoneCall C))⟩
  | opening =>
      rw [hm] at hphase
      rcases openStep_exists C.setup hphase.2.1 hphase.2.2 with ⟨x, g, ho⟩ | hwait
      · exact opening_moves hm ho
      · exact absurd (.inl ⟨hm, hwait⟩) hstuck
  | failing e => exact ⟨_, _, .main (.M_Fail (p := false) hm)⟩
  | failed e => exact ⟨_, _, .main (.M_Failed (p := false) hm)⟩
  | injected => exact ⟨_, _, .main (.M_Injected (p := false) hm)⟩
  | receiving => exact ⟨_, _, .main (.M_Receive hm)⟩
  | subscribing => exact ⟨_, _, .main (.M_Events hm)⟩
  | starting => exact ⟨_, _, .main (.M_Start (p := false) hm)⟩
  | waiting => exact ⟨_, _, .main (.M_ContextDone hm hctx)⟩
  | draining =>
      rw [hm] at hphase
      obtain ⟨hstarted, ha, he⟩ := hphase
      rcases audio_moves h hd hstarted.1 ha with hstep | hpa
      · exact hstep
      · rcases events_moves h hd hstarted.2 he with hstep | hpe
        · exact hstep
        · by_cases hgone : s.audio = .exiting .gone ∧ s.events = .exiting .gone
          · exact ⟨_, _, .main (.M_Drained hm hgone.1 hgone.2)⟩
          · exact absurd (.inr ⟨hm, hpa, hpe, hgone⟩) hstuck
  | closingTransport r e => exact ⟨_, _, .main (.M_CloseTransport hm)⟩
  | closingLLM r e => exact ⟨_, _, .main (.M_CloseLLM hm)⟩
  | ending r e => exact ⟨_, _, .main (.M_End (p := false) hm)⟩
  | returned e => exact absurd hm (hret e)

end Gopkg.Voice
