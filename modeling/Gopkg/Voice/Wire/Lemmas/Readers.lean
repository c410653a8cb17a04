import Gopkg.Lts.Simulation
import Gopkg.Voice.Lemmas.CallerAudio
import Gopkg.Voice.Lemmas.GeminiTurns
import Gopkg.Voice.Lemmas.PhoneCall
import Gopkg.Voice.Lemmas.Reading
import Gopkg.Voice.Lemmas.Source
import Gopkg.Voice.Wire.Call
import Gopkg.Voice.Wire.Lemmas.Tools

/-!
# What a call does with the messages that arrive

The frames that are sent to Gemini come from the messages of Twilio, and the events that are dispatched come from those
of Gemini.
-/

namespace Gopkg.Voice.Wire

open Lts

variable {V : Type} {C : CallSetup} {t ws : List (Seen V)} {evs : List (Event V)} {s s' : CallState V}

/-! ## A call is a run of the session -/

theorem events_append (t ws : List (Seen V)) : events (t ++ ws) = events t ++ events ws := List.filterMap_append

theorem fromTwilio_append (t ws : List (Seen V)) : fromTwilio (t ++ ws) = fromTwilio t ++ fromTwilio ws :=
  List.filterMap_append

theorem fromGemini_append (t ws : List (Seen V)) : fromGemini (t ++ ws) = fromGemini t ++ fromGemini ws :=
  List.filterMap_append

@[simp]
theorem events_map (evs : List (Event V)) : events (evs.map .event) = evs := by
  simp [events, List.filterMap_map]

@[simp]
theorem fromTwilio_map (evs : List (Event V)) : fromTwilio (evs.map .event) = [] := by
  simp [fromTwilio]

@[simp]
theorem fromGemini_map (evs : List (Event V)) : fromGemini (evs.map .event) = [] := by
  simp [fromGemini]

theorem LocalStep.step (h : LocalStep C s evs s') : Step (phoneCall V C) s evs s' := by
  cases h with
  | main h => exact .main h
  | audio h => exact .audio h
  | events h => exact .events h
  | adapter h => exact .adapter h

theorem CallStep.forget (h : CallStep C s ws s') : Step (phoneCall V C) s (events ws) s' := by
  cases h with
  | own h =>
      rw [events_map]
      exact LocalStep.step h
  | filler h =>
      rw [events_map]
      exact .filler h
  | W_Twilio m hlive => exact .env (.N_Transport (.P_Send m hlive))
  | W_TwilioEnds e hlive => exact .env (.N_Transport (.P_End e hlive))
  | W_Gemini m hlive => exact .env (.N_LLM ⟨_, .P_Send m hlive, rfl⟩)
  | W_GeminiEnds e hlive => exact .env (.N_LLM ⟨_, .P_End e hlive, rfl⟩)
  | W_Context hctx he => exact .env (.N_Context hctx he)

/-- No step of the session is missing. -/
theorem CallStep.of_step (h : Step (phoneCall V C) s evs s') : ∃ ws, CallStep C s ws s' ∧ events ws = evs := by
  cases h with
  | main h => exact ⟨_, .own (.main h), events_map _⟩
  | audio h => exact ⟨_, .own (.audio h), events_map _⟩
  | events h => exact ⟨_, .own (.events h), events_map _⟩
  | adapter h => exact ⟨_, .own (.adapter h), events_map _⟩
  | filler h => exact ⟨_, .filler h, events_map _⟩
  | env h =>
      cases h with
      | N_Transport h =>
          cases h with
          | P_Send m hlive => exact ⟨_, .W_Twilio m hlive, rfl⟩
          | P_End e hlive => exact ⟨_, .W_TwilioEnds e hlive, rfl⟩
      | N_LLM h =>
          obtain ⟨r, h, rfl⟩ := h
          cases h with
          | P_Send m hlive => exact ⟨_, .W_Gemini m hlive, rfl⟩
          | P_End e hlive => exact ⟨_, .W_GeminiEnds e hlive, rfl⟩
      | N_Context hctx he => exact ⟨_, .W_Context hctx he, rfl⟩

theorem forget_run (hr : Run (CallStep C) CallState.init t s) :
    Run (Step (phoneCall V C)) CallState.init (events t) s :=
  hr.simulate (f := id) rfl events_append fun _ _ _ hs => .single (CallStep.forget hs)

/-! ## The caller -/

def toModel (f : Frame) : Frame := { f with data := Audio.mulaw8kToPCM16LE16k f.data }

/-- The frames that were taken from Twilio are those that were sent to Gemini, and the one in hand. -/
def CallerLaw (t : List (Seen V)) (s : CallState V) : Prop :=
  ∃ got read lost, Reading Twilio.readLoop Frame.data () (fromTwilio t) got s.done s.transport read lost ∧
    got.map toModel = sentFrames (events t) ++ inHand s.audio

/-- A step beside the caller's audio. -/
theorem CallerLaw.still (h : CallerLaw t s) (hsent : sentFrames evs = []) (htransport : s'.transport = s.transport)
    (hdone : s.done = true → s'.done = true) (haudio : inHand s'.audio = inHand s.audio) :
    CallerLaw (t ++ evs.map .event) s' := by
  obtain ⟨got, read, lost, hreading, hframes⟩ := h
  refine ⟨got, read, lost, ?_, ?_⟩
  · rw [fromTwilio_append, fromTwilio_map, List.append_nil, htransport]
    exact hreading.cancel hdone
  · rw [events_append, events_map, sentFrames_append, hsent, List.append_nil, haudio]
    exact hframes

theorem CallerLaw.mainStep (h : CallerLaw t s) (hreached : Reached C (events t) s)
    (hs : MainStep (phoneCall V C) s evs s') : CallerLaw (t ++ evs.map .event) s' := by
  cases hs with
  | M_Start hm =>
      refine h.still rfl rfl id ?_
      exact (inHand_off (hreached.outcomes.quiet (by rw [hm]; exact id)).1).symm
  | M_Receive hm =>
      obtain ⟨got, read, lost, hreading, hframes⟩ := h
      have hphase := hreached.sound.phase
      rw [hm] at hphase
      rw [List.map_nil, List.append_nil]
      exact ⟨got, read, lost, hreading.start hphase.1, hframes⟩
  | M_CloseTransport _ =>
      obtain ⟨got, read, lost, hreading, hframes⟩ := h
      refine ⟨got, read, lost, ?_, ?_⟩
      · rw [fromTwilio_append, fromTwilio_map, List.append_nil]
        exact hreading.close
      · rw [events_append, events_map, sentFrames_append, show sentFrames [Event.transportClose (V := V)] = [] from rfl,
          List.append_nil]
        exact hframes
  | M_ContextDone _ _ | M_End _ => exact h.still rfl rfl done_cancel rfl
  | M_Resolved _ _ | M_Unresolved _ _ | M_Fail _ | M_Failed _ | M_Open _ _ | M_Opened _ _ | M_OpenFailed _ _
  | M_Injected _ | M_Events _ | M_Done _ _ _ | M_Drained _ _ _ | M_CloseLLM _ => exact h.still rfl rfl id rfl

theorem CallerLaw.audioStep (h : CallerLaw t s) (hs : AudioStep (phoneCall V C) s evs s') :
    CallerLaw (t ++ evs.map .event) s' := by
  cases hs with
  | @A_Frame b f x ha hb hrecv =>
      obtain ⟨got, read, lost, hreading, hframes⟩ := h
      cases hb.symm.trans (bridges_phoneCall C)
      rw [ha] at hframes
      rw [List.map_nil, List.append_nil]
      refine ⟨got ++ [f], read, lost, hreading.take hrecv, ?_⟩
      rw [List.map_append, hframes, show inHand (.select : AudioPc V) = [] from rfl, List.append_nil]
      rfl
  | A_Closed ha hrecv | A_Error ha hrecv =>
      obtain ⟨got, read, lost, hreading, hframes⟩ := h
      rw [ha] at hframes
      rw [List.map_nil, List.append_nil]
      exact ⟨got, read, lost, hreading.recv hrecv nofun, hframes⟩
  | A_NoError ha hx hrecv =>
      obtain ⟨got, read, lost, hreading, hframes⟩ := h
      rw [List.map_nil, List.append_nil]
      refine ⟨got, read, lost, hreading.recv hrecv ?_, hframes⟩
      rcases hx with rfl | rfl
      · nofun
      · nofun
  | @A_Send f err ha =>
      obtain ⟨got, read, lost, hreading, hframes⟩ := h
      rw [ha] at hframes
      refine ⟨got, read, lost, ?_, ?_⟩
      · rw [fromTwilio_append, fromTwilio_map, List.append_nil]
        exact hreading
      · rw [events_append, events_map, sentFrames_append, inHand_audioSent, List.append_nil]
        exact hframes
  | A_Exit ha hx =>
      obtain ⟨hsent, -, htransport, -, -, -, hdone⟩ := ExitStep.quiet hx
      refine h.still hsent htransport hdone ?_
      rw [ha]
      rfl

theorem CallerLaw.eventsStep (h : CallerLaw t s) (hs : EventsStep (phoneCall V C) s evs s') :
    CallerLaw (t ++ evs.map .event) s' := by
  cases hs with
  | E_Act _ => exact h.still (sentFrames_shows _ _) rfl id rfl
  | E_Batch _ hc => exact h.still (CoreStep.sentFrames_eq hc) rfl id rfl
  | E_Exit _ hx =>
      obtain ⟨hsent, -, htransport, -, -, haudio, hdone⟩ := ExitStep.quiet hx
      exact h.still hsent htransport hdone (congrArg inHand haudio)
  | E_Event _ _ _ | E_Closed _ _ | E_Error _ _ | E_NoError _ _ _ | E_Send _ _ | E_Acted _ | E_Finish _ _ =>
      exact h.still rfl rfl id rfl

theorem CallerLaw.adapterStep (h : CallerLaw t s) (hs : AdapterStep (phoneCall V C) s evs s') :
    CallerLaw (t ++ evs.map .event) s' := by
  cases hs with
  | @T_Tick x e htick =>
      obtain ⟨got, read, lost, hreading, hframes⟩ := h
      obtain ⟨read', lost', hreading⟩ := hreading.tick (fun _ _ heq => heq) htick
      refine ⟨got, read', lost', ?_, ?_⟩
      · rw [fromTwilio_append, fromTwilio_map, List.append_nil]
        exact hreading
      · have hsent : sentFrames (e.toList.map Event.transportEnded) = [] := by
          cases e <;> rfl
        rw [events_append, events_map, sentFrames_append, hsent, List.append_nil]
        exact hframes
  | @L_Tick _ e _ => exact h.still (by cases e <;> rfl) rfl id rfl

theorem CallerLaw.step (h : CallerLaw t s) (hreached : Reached C (events t) s) (hs : CallStep C s ws s') :
    CallerLaw (t ++ ws) s' := by
  cases hs with
  | own hs =>
      cases hs with
      | main hs => exact h.mainStep hreached hs
      | audio hs => exact h.audioStep hs
      | events hs => exact h.eventsStep hs
      | adapter hs => exact h.adapterStep hs
  | filler hs =>
      cases hs with
      | F_Batch _ hh | F_Over _ _ _ hh => exact h.still (HoldStep.sentFrames_eq hh) rfl id rfl
  | W_Context _ _ =>
      refine h.still (show sentFrames [.contextDone _] = [] from rfl) rfl (fun hd => ?_) rfl
      obtain ⟨e, he⟩ := Option.isSome_iff_exists.mp hd
      simp [State.done, he]
  | W_Gemini m _ =>
      obtain ⟨got, read, lost, hreading, hframes⟩ := h
      refine ⟨got, read, lost, ?_, ?_⟩
      · rw [fromTwilio_append, show fromTwilio [Seen.fromGemini m] = [] from rfl, List.append_nil]
        exact hreading
      · rw [events_append, show events [Seen.fromGemini m] = [] from rfl, List.append_nil]
        exact hframes
  | W_GeminiEnds _ _ => exact h.still (show sentFrames [] = [] from rfl) rfl id rfl
  | W_Twilio m _ =>
      obtain ⟨got, read, lost, hreading, hframes⟩ := h
      refine ⟨got, read, lost, ?_, ?_⟩
      · rw [fromTwilio_append]
        exact hreading.arrive m
      · rw [events_append, show events [Seen.fromTwilio (V := V) m] = [] from rfl, List.append_nil]
        exact hframes
  | W_TwilioEnds _ _ =>
      obtain ⟨got, read, lost, hreading, hframes⟩ := h
      rw [List.append_nil]
      exact ⟨got, read, lost, hreading.quiet rfl rfl rfl .intro, hframes⟩

theorem CallerLaw.run (hr : Run (CallStep C) CallState.init t s) : CallerLaw t s := by
  refine (hr.invariant (I := fun t s => Reached C (events t) s ∧ CallerLaw t s) ?_ ?_).2
  · exact ⟨⟨.init _ _, .init C⟩, [], [], [], .fresh _ _ _ _, rfl⟩
  · intro t s ws s' h hs
    refine ⟨?_, h.2.step h.1 hs⟩
    rw [events_append]
    exact h.1.step (CallStep.forget hs)

/-! ## The model -/

/-- `Open` has succeeded, and `Run` has not returned. -/
def Running : MainPc V → Prop
  | .resolving | .opening | .failing _ | .failed _ | .returned _ => False
  | _ => True

/-- `Open` has taken the messages `skipped`, of which there is one at most, and `Events` reads those after it. -/
structure ModelReads (t : List (Seen V)) (s : CallState V) (skipped rest read : List (Option (Gemini.ServerMessage V)))
    (lost : List (LLMEvent V)) : Prop where
  messages : fromGemini t = skipped ++ rest
  reading : Reading Gemini.readLoop id "" rest (received (events t)) s.done s.llm.reader read lost
  one : skipped.length ≤ 1
  waiting : s.llm.openPc = .setup ∨ s.llm.openPc = .awaiting → skipped = []
  replaying : ∀ texts, s.llm.openPc = .replaying texts → skipped ≠ []
  running : Running s.main → skipped ≠ []
  idle : s.llm.reader.pc = .idle → read = []
  unread : skipped = [] → s.llm.reader.pc = .idle

def ModelLaw (t : List (Seen V)) (s : CallState V) : Prop :=
  ∃ skipped rest read lost, ModelReads t s skipped rest read lost

variable {skipped rest read : List (Option (Gemini.ServerMessage V))} {lost : List (LLMEvent V)}

/-- A step beside the reader of Gemini. -/
theorem ModelReads.still (h : ModelReads t s skipped rest read lost) (hevents : received evs = [])
    (hllm : s'.llm = s.llm) (hdone : s.done = true → s'.done = true) (hmain : Running s'.main → Running s.main) :
    ModelReads (t ++ evs.map .event) s' skipped rest read lost where
  messages := by
    rw [fromGemini_append, fromGemini_map, List.append_nil]
    exact h.messages
  reading := by
    rw [events_append, events_map, received_append, hevents, List.append_nil, hllm]
    exact h.reading.cancel hdone
  one := h.one
  waiting := by rw [hllm]; exact h.waiting
  replaying := by rw [hllm]; exact h.replaying
  running := fun hr => h.running (hmain hr)
  idle := by rw [hllm]; exact h.idle
  unread := by rw [hllm]; exact h.unread

theorem ModelLaw.still (h : ModelLaw t s) (hevents : received evs = []) (hllm : s'.llm = s.llm)
    (hdone : s.done = true → s'.done = true) (hmain : Running s'.main → Running s.main) :
    ModelLaw (t ++ evs.map .event) s' := by
  obtain ⟨_, _, _, _, h⟩ := h
  exact ⟨_, _, _, _, h.still hevents hllm hdone hmain⟩

/-- The reader moves on, after the message that `Open` has taken. -/
theorem ModelReads.move {r : Gemini.EventsReader V} (h : ModelReads t s skipped rest read lost)
    (evs : List (Event V)) (hskipped : skipped ≠ []) (hidle : r.pc ≠ .idle)
    (hreading : ∃ read' lost', Reading Gemini.readLoop id "" rest (received (events t ++ evs)) s.done r read' lost')
    (hmain : Running s'.main → Running s.main) (hllm : s'.llm = { s.llm with reader := r })
    (hdone : s'.done = s.done) : ModelLaw (t ++ evs.map .event) s' := by
  obtain ⟨read', lost', hreading⟩ := hreading
  refine ⟨skipped, rest, read', lost', ?_, ?_, h.one, ?_, ?_, fun hr => h.running (hmain hr), ?_, ?_⟩
  · rw [fromGemini_append, fromGemini_map, List.append_nil]
    exact h.messages
  · rw [events_append, events_map, hllm, hdone]
    exact hreading
  · rw [hllm]; exact h.waiting
  · rw [hllm]; exact h.replaying
  · rw [hllm]; exact fun hpc => absurd hpc hidle
  · exact fun hnone => absurd hnone hskipped

/-! ### `Open` -/

/-- `Open` takes the first message. -/
theorem ModelReads.takeFirst {m : Option (Gemini.ServerMessage V)} {ms : List (Option (Gemini.ServerMessage V))}
    {pc : Gemini.OpenPc} (h : ModelReads t s skipped rest read lost) (hpc : s.llm.openPc = .awaiting)
    (hinbox : s.llm.reader.inbox = m :: ms) (hdiff : pc ≠ .setup ∧ pc ≠ .awaiting) :
    ModelLaw t { s with llm := ⟨pc, { s.llm.reader with inbox := ms }⟩ } := by
  have hskipped := h.waiting (.inr hpc)
  have hidle := h.unread hskipped
  have hread := h.idle hidle
  have hmessages := h.messages
  have hrest := h.reading.messages
  rw [hskipped, List.nil_append] at hmessages
  rw [hread, List.nil_append, hinbox] at hrest
  refine ⟨[m], ms, [], lost, ?_, ⟨rfl, ?_, ?_, h.reading.cancelled⟩, le_rfl, ?_, ?_, ?_, fun _ => rfl, fun hn => ?_⟩
  · rw [hmessages, hrest]
    rfl
  · rw [h.reading.vars, hread]
  · rw [h.reading.items, hread]
  · rintro (h | h)
    · exact absurd h hdiff.1
    · exact absurd h hdiff.2
  · exact fun _ _ => nofun
  · exact fun _ => nofun
  · exact nomatch hn

theorem ModelReads.openPc {pc : Gemini.OpenPc} (h : ModelReads t s skipped rest read lost)
    (hwaiting : pc = .setup ∨ pc = .awaiting → s.llm.openPc = .setup ∨ s.llm.openPc = .awaiting)
    (hreplaying : ∀ texts, pc = .replaying texts → ∃ texts', s.llm.openPc = .replaying texts') :
    ModelReads t { s with llm := { s.llm with openPc := pc } } skipped rest read lost where
  messages := h.messages
  reading := h.reading
  one := h.one
  waiting := fun hpc => h.waiting (hwaiting hpc)
  replaying := fun texts hpc => by
    obtain ⟨texts', hpc'⟩ := hreplaying texts hpc
    exact h.replaying texts' hpc'
  running := h.running
  idle := h.idle
  unread := h.unread

theorem ModelLaw.openStep {x : Option (Option (Err V))} {l : Gemini.State V} (h : ModelLaw t s)
    (hopen : Gemini.OpenStep C.setup s.llm x l) : ModelLaw t { s with llm := l } := by
  obtain ⟨skipped, rest, read, lost, h⟩ := h
  cases hopen with
  | O_Setup hpc => exact ⟨_, _, _, _, h.openPc (fun _ => .inl hpc) nofun⟩
  | O_SetupFailed _ | O_ReadFailed _ _ _ | O_ReplayFailed _ | O_Opened _ =>
      exact ⟨_, _, _, _, h.openPc (by simp) nofun⟩
  | O_Replay hpc => exact ⟨_, _, _, _, h.openPc (by simp) fun _ _ => ⟨_, hpc⟩⟩
  | O_Complete hpc hinbox _ => exact h.takeFirst hpc hinbox ⟨nofun, nofun⟩
  | O_Unexpected hpc hinbox _ => exact h.takeFirst hpc hinbox ⟨nofun, nofun⟩
  | O_Malformed hpc hinbox => exact h.takeFirst hpc hinbox ⟨nofun, nofun⟩

/-- `Open` can only return without an error after the first message. -/
theorem ModelLaw.opened {l : Gemini.State V} (h : ModelLaw t s) (hopen : Gemini.OpenStep C.setup s.llm (some none) l) :
    ModelLaw (t ++ [.event (.opened none)]) { s with llm := l, main := .injected } := by
  obtain ⟨skipped, rest, read, lost, h⟩ := h
  cases hopen with
  | O_Opened hpc =>
      have hpassed := h.replaying _ hpc
      have hmoved : ModelReads t { s with llm := { s.llm with openPc := .opened } } skipped rest read lost :=
        h.openPc (by simp) nofun
      have hopened := hmoved.still (show received [.opened none] = [] from rfl) rfl id id
      exact ⟨skipped, rest, read, lost, hopened.messages, hopened.reading, hopened.one, hopened.waiting,
        hopened.replaying, fun _ => hpassed, hopened.idle, hopened.unread⟩

/-! ### Steps -/

theorem ModelLaw.mainStep (h : ModelLaw t s) (hreached : Reached C (events t) s)
    (hs : MainStep (phoneCall V C) s evs s') : ModelLaw (t ++ evs.map .event) s' := by
  have hphase := hreached.sound.phase
  cases hs with
  | M_Open _ hopen =>
      rw [List.map_nil, List.append_nil]
      exact h.openStep hopen
  | M_Opened _ hopen => exact h.opened hopen
  | @M_OpenFailed l e _ hopen =>
      have hfailed := h.openStep hopen
      exact hfailed.still (show received [.opened (some e)] = [] from rfl) rfl id False.elim
  | M_Events hm =>
      obtain ⟨skipped, rest, read, lost, h⟩ := h
      rw [hm] at hphase
      refine h.move [] (r := s.llm.reader.start) (h.running (by rw [hm]; trivial)) (by simp [Reader.start]) ?_
        ?_ rfl rfl
      · rw [List.append_nil]
        exact ⟨read, lost, h.reading.start hphase.2⟩
      · exact fun _ => by rw [hm]; trivial
  | M_CloseLLM hm =>
      obtain ⟨skipped, rest, read, lost, h⟩ := h
      rw [hm] at hphase
      refine h.move [.llmClose] (r := s.llm.reader.close) (h.running (by rw [hm]; trivial)) hphase.2 ?_
        ?_ rfl rfl
      · rw [received_append, show received [Event.llmClose (V := V)] = [] from rfl, List.append_nil]
        exact ⟨read, lost, h.reading.close⟩
      · exact fun _ => by rw [hm]; trivial
  | M_ContextDone hm _ => exact h.still rfl rfl done_cancel fun _ => by rw [hm]; trivial
  | M_End _ => exact h.still rfl rfl done_cancel False.elim
  | M_Failed _ | M_Fail _ | M_Unresolved _ _ | M_Resolved _ _ => exact h.still rfl rfl id False.elim
  | M_Injected hm | M_Receive hm | M_Start hm | M_Done hm _ _ | M_Drained hm _ _ | M_CloseTransport hm =>
      exact h.still rfl rfl id fun _ => by rw [hm]; trivial

/-- The dispatch goroutine runs only while `Run` waits. -/
theorem dispatching (h : Reached C (events t) s) (hevents : ¬ s.events.Off) :
    Running s.main ∧ s.llm.reader.pc ≠ .idle := by
  have hwaits : s.main.Waits := Classical.byContradiction fun hn => hevents (h.outcomes.quiet hn).2
  have hphase := h.sound.phase
  generalize s.main = pc at hwaits hphase
  cases pc with
  | waiting | draining => exact ⟨trivial, hphase.1.2⟩
  | _ => exact hwaits.elim

theorem ModelLaw.eventsStep (h : ModelLaw t s) (hreached : Reached C (events t) s)
    (hs : EventsStep (phoneCall V C) s evs s') : ModelLaw (t ++ evs.map .event) s' := by
  obtain ⟨hrun, hstarted⟩ := dispatching hreached hs.not_off
  obtain ⟨skipped, rest, read, lost, h⟩ := h
  have hskipped := h.running hrun
  cases hs with
  | @E_Event b ev l he _ hrecv =>
      obtain ⟨r, hrecv, rfl⟩ := hrecv
      refine h.move [.received ev] hskipped ?_ ?_ id rfl rfl
      · cases hrecv with
        | C_Item _ => exact ReaderPc.next_ne_idle _
      · rw [received_append]
        exact ⟨read, lost, h.reading.take hrecv⟩
  | E_Closed _ hrecv | E_Error _ hrecv =>
      obtain ⟨r, hrecv, rfl⟩ := hrecv
      have hidle : r.pc ≠ .idle := by
        cases hrecv
        exact hstarted
      refine h.move [] hskipped hidle ?_ id rfl rfl
      rw [List.append_nil]
      exact ⟨read, lost, h.reading.recv hrecv nofun⟩
  | E_NoError _ hx hrecv =>
      obtain ⟨r, hrecv, rfl⟩ := hrecv
      rcases hx with rfl | rfl
      · cases hrecv
      · have hidle : r.pc ≠ .idle := by
          cases hrecv
          exact hstarted
        refine h.move [] hskipped hidle ?_ id rfl rfl
        rw [List.append_nil]
        exact ⟨read, lost, h.reading.recv hrecv nofun⟩
  | E_Act _ => exact ⟨_, _, _, _, h.still (received_shows _ _) rfl id id⟩
  | E_Batch _ hc => exact ⟨_, _, _, _, h.still hc.received_eq rfl id id⟩
  | E_Exit _ hx =>
      obtain ⟨-, hevents, -, hllm, hmain, -, hdone⟩ := ExitStep.quiet hx
      exact ⟨_, _, _, _, h.still hevents hllm hdone (hmain ▸ id)⟩
  | E_Send _ _ | E_Acted _ | E_Finish _ _ => exact ⟨_, _, _, _, h.still rfl rfl id id⟩

theorem ModelLaw.audioStep (h : ModelLaw t s) (hs : AudioStep (phoneCall V C) s evs s') :
    ModelLaw (t ++ evs.map .event) s' := by
  cases hs with
  | A_Exit _ hx =>
      obtain ⟨-, hevents, -, hllm, hmain, -, hdone⟩ := ExitStep.quiet hx
      exact h.still hevents hllm hdone (hmain ▸ id)
  | A_Frame _ _ _ | A_Closed _ _ | A_Error _ _ | A_NoError _ _ _ | A_Send _ _ => exact h.still rfl rfl id id

theorem tick_not_idle {x : Option (Ending V)} {r r' : Gemini.EventsReader V} {done : Bool}
    (h : ReaderTick Gemini.readLoop done r x r') : r.pc ≠ .idle ∧ r'.pc ≠ .idle := by
  cases h with
  | R_Items hpc _ _ _ =>
      rw [hpc]
      exact ⟨nofun, ReaderPc.next_ne_idle _⟩
  | R_Return hpc _ | R_Read hpc _ | R_Stop hpc _ _ _ | R_Clean hpc _ _ | R_Failed hpc _ _ | R_Closed hpc _
  | R_Put hpc _ | R_Prepare hpc _ | R_PrepareDone hpc _ | R_EmitDone hpc _ | R_CloseErrs hpc | R_CloseItems hpc =>
      rw [hpc]
      exact ⟨nofun, nofun⟩

theorem ModelLaw.adapterStep (h : ModelLaw t s) (hs : AdapterStep (phoneCall V C) s evs s') :
    ModelLaw (t ++ evs.map .event) s' := by
  cases hs with
  | @T_Tick _ e _ => exact h.still (by cases e <;> rfl) rfl id id
  | @L_Tick _ e htick =>
      obtain ⟨r, htick, rfl⟩ := htick
      obtain ⟨skipped, rest, read, lost, h⟩ := h
      obtain ⟨hbefore, hafter⟩ := tick_not_idle htick
      have hevents : received (e.toList.map Event.llmEnded) = [] := by
        cases e <;> rfl
      refine h.move _ (fun hn => hbefore (h.unread hn)) hafter ?_ id rfl rfl
      rw [received_append, hevents, List.append_nil]
      exact h.reading.tick (fun _ _ heq => heq) htick

theorem ModelLaw.step (h : ModelLaw t s) (hreached : Reached C (events t) s) (hs : CallStep C s ws s') :
    ModelLaw (t ++ ws) s' := by
  cases hs with
  | own hs =>
      cases hs with
      | main hs => exact h.mainStep hreached hs
      | audio hs => exact h.audioStep hs
      | events hs => exact h.eventsStep hreached hs
      | adapter hs => exact h.adapterStep hs
  | filler hs =>
      cases hs with
      | F_Batch _ hh | F_Over _ _ _ hh => exact h.still (HoldStep.received_eq hh) rfl id id
  | W_Context _ _ =>
      refine h.still (show received [.contextDone _] = [] from rfl) rfl (fun hd => ?_) id
      obtain ⟨e, he⟩ := Option.isSome_iff_exists.mp hd
      simp [State.done, he]
  | W_Twilio m _ =>
      obtain ⟨skipped, rest, read, lost, h⟩ := h
      refine ⟨skipped, rest, read, lost, ?_, ?_, h.one, h.waiting, h.replaying, h.running, h.idle, h.unread⟩
      · rw [fromGemini_append, show fromGemini [Seen.fromTwilio (V := V) m] = [] from rfl, List.append_nil]
        exact h.messages
      · rw [events_append, show events [Seen.fromTwilio (V := V) m] = [] from rfl, List.append_nil]
        exact h.reading
  | W_TwilioEnds _ _ => exact h.still (show received [] = [] from rfl) rfl id id
  | W_Gemini m _ =>
      obtain ⟨skipped, rest, read, lost, h⟩ := h
      refine ⟨skipped, rest ++ [m], read, lost, ?_, ?_, h.one, h.waiting, h.replaying, h.running, h.idle, h.unread⟩
      · rw [fromGemini_append, h.messages, List.append_assoc]
        rfl
      · rw [events_append, show events [Seen.fromGemini m] = [] from rfl, List.append_nil]
        exact h.reading.arrive m
  | W_GeminiEnds _ _ =>
      obtain ⟨skipped, rest, read, lost, h⟩ := h
      rw [List.append_nil]
      exact ⟨skipped, rest, read, lost, h.messages, h.reading.quiet rfl rfl rfl .intro, h.one, h.waiting, h.replaying,
        h.running, h.idle, h.unread⟩

theorem ModelLaw.run (hr : Run (CallStep C) CallState.init t s) : ModelLaw t s := by
  refine (hr.invariant (I := fun t s => Reached C (events t) s ∧ ModelLaw t s) ?_ ?_).2
  · refine ⟨⟨.init _ _, .init C⟩, [], [], [], [], rfl, .fresh _ _ _ _, Nat.zero_le _, fun _ => rfl, nofun, False.elim,
      fun _ => rfl, fun _ => rfl⟩
  · intro t s ws s' h hs
    refine ⟨?_, h.2.step h.1 hs⟩
    rw [events_append]
    exact h.1.step (CallStep.forget hs)

/-- The events that are dispatched begin those of the messages after the first one. -/
theorem ModelLaw.begins (h : ModelLaw t s) : received (events t) <+: (Gemini.translate (fromGemini t).tail).1 := by
  obtain ⟨skipped, rest, read, lost, h⟩ := h
  cases skipped with
  | nil =>
      -- the reader has not started
      have hread := h.idle (h.unread rfl)
      have hitems := h.reading.items
      rw [hread, List.append_assoc, List.map_id] at hitems
      rw [(List.append_eq_nil_iff.mp hitems).1]
      exact List.nil_prefix
  | cons m skipped =>
      have hnil : skipped = [] := List.length_eq_zero_iff.mp (Nat.le_zero.mp (Nat.le_of_succ_le_succ h.one))
      have htaken := h.reading.taken_begins
      rw [List.map_id] at htaken
      rw [h.messages, hnil]
      exact htaken

theorem ModelLaw.whole (h : ModelLaw t s) (hrun : Running s.main) (hdone : s.done = false)
    (hinbox : s.llm.reader.inbox = []) (hpending : s.llm.reader.pc.pending id = []) :
    received (events t) = (Gemini.translate (fromGemini t).tail).1 := by
  obtain ⟨skipped, rest, read, lost, h⟩ := h
  have htaken := h.reading.taken_all hdone hinbox hpending
  rw [List.map_id] at htaken
  obtain ⟨m, skipped, rfl⟩ := List.exists_cons_of_ne_nil (h.running hrun)
  have hnil : skipped = [] := List.length_eq_zero_iff.mp (Nat.le_zero.mp (Nat.le_of_succ_le_succ h.one))
  rw [h.messages, hnil]
  exact htaken

end Gopkg.Voice.Wire
