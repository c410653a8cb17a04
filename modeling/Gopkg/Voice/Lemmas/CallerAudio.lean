import Gopkg.Audio.Lemmas.Chunks
import Gopkg.Voice.Lemmas.Outcome
import Gopkg.Voice.PhoneCall

/-!
# The audio for the caller

What a session passes to `Transport.Send`, frame by frame, and the runs of a phone call in which the LLM speaks
frames of any content.
-/

namespace Gopkg.Voice

open Lts Audio

variable {σ τ V : Type} {P : Config σ τ V} {t evs : List (Event V)} {s s' : State σ τ V} {b : Bridge}

def Event.sent : Event V → List UInt8
  | .send f _ => f.data
  | _ => []

/-- The bytes that were passed to `Transport.Send`. -/
def sentBytes (t : List (Event V)) : List UInt8 := t.flatMap Event.sent

def Event.audioOut? : Event V → Option (List UInt8)
  | .received (.audioOut f) => some f.data
  | _ => none

/-- The bytes of the `EventAudioOut` frames, frame by frame. -/
def audioOut (t : List (Event V)) : List (List UInt8) := t.filterMap Event.audioOut?

/-- In every run that has handed over its frames, of the lengths `ls`, and whose calls of `Transport.Send`
succeed, the caller hears what the conversion of all the bytes at once gives. -/
def ChunkFree (P : Config σ τ V) (x : σ) (l : τ) (ls : List Nat) : Prop :=
  ∀ t s, Run (Step P) (State.init x l) t s → (∀ f, s.events ≠ .sending f) →
    (∀ f e, .send f (some e) ∉ t) → (audioOut t).map List.length = ls →
    sentBytes t = pcm16LE24kToMulaw8k (audioOut t).flatten

/-! ## The invariant -/

def EventsPc.inFlight : EventsPc V → List UInt8
  | .sending f => f.data
  | _ => []

def AudioLaw (t : List (Event V)) (s : State σ τ V) : Prop :=
  convertEach (audioOut t) = sentBytes t ++ s.events.inFlight

def Event.Hushed (ev : Event V) : Prop := ev.sent = [] ∧ ev.audioOut? = none

theorem sentBytes_append (t evs : List (Event V)) : sentBytes (t ++ evs) = sentBytes t ++ sentBytes evs :=
  List.flatMap_append

theorem audioOut_append (t evs : List (Event V)) : audioOut (t ++ evs) = audioOut t ++ audioOut evs :=
  List.filterMap_append

theorem convertEach_append (ps qs : List (List UInt8)) :
    convertEach (ps ++ qs) = convertEach ps ++ convertEach qs :=
  List.flatMap_append

theorem AudioLaw.hushed (h : AudioLaw t s) (hev : ∀ ev ∈ evs, ev.Hushed)
    (hflight : s'.events.inFlight = s.events.inFlight) : AudioLaw (t ++ evs) s' := by
  have hsent : sentBytes evs = [] := List.flatMap_eq_nil_iff.mpr fun ev hm => (hev ev hm).1
  have hout : audioOut evs = [] := List.filterMap_eq_nil_iff.mpr fun ev hm => (hev ev hm).2
  rw [AudioLaw, audioOut_append, sentBytes_append, hsent, hout, hflight, List.append_nil, List.append_nil]
  exact h

theorem EventsPc.Off.inFlight_eq {p : EventsPc V} (h : p.Off) : p.inFlight = [] := by
  cases p with
  | sending f => exact h.elim
  | idle | select | acting _ | batch _ | exiting _ => rfl

theorem inFlight_eventsSent (err : Option (Err V)) : (eventsSent err).inFlight = [] := by
  cases err <;> rfl

theorem CoreStep.hushed {n : Nat} {b b' : Batch V} (h : CoreStep n b evs b') : ∀ ev ∈ evs, ev.Hushed := by
  cases h <;> simp [Event.Hushed, Event.sent, Event.audioOut?]

theorem HoldStep.hushed {filler : Filler} {d hd : Bool} {h h' : HoldPc} (hs : HoldStep filler d hd h evs h') :
    ∀ ev ∈ evs, ev.Hushed := by
  cases hs <;> simp [Event.Hushed, Event.sent, Event.audioOut?]

theorem ExitStep.hushed {x x' : Exit V} (h : ExitStep s x evs s' x') :
    (∀ ev ∈ evs, ev.Hushed) ∧ s'.events = s.events := by
  cases h <;> simp [Event.Hushed, Event.sent, Event.audioOut?, State.recordEnd, State.cancel]

theorem Action.shows_hushed (p : Bool) (a : Action V) : (a.shows p).Hushed := by
  cases a <;> exact ⟨rfl, rfl⟩

theorem AudioLaw.mainStep (h : AudioLaw t s) (ho : Outcomes t s) (hs : MainStep P s evs s') :
    AudioLaw (t ++ evs) s' := by
  cases hs with
  | M_Start hm =>
      refine h.hushed (by simp [Event.Hushed, Event.sent, Event.audioOut?]) ?_
      exact ((ho.quiet (by rw [hm]; exact id)).2.inFlight_eq).symm
  | M_Resolved _ _ | M_Unresolved _ _ | M_Fail _ | M_Failed _ | M_Open _ _ | M_Opened _ _ | M_OpenFailed _ _
  | M_Injected _ | M_Receive _ | M_Events _ | M_Done _ _ _ | M_ContextDone _ _ | M_Drained _ _ _
  | M_CloseTransport _ | M_CloseLLM _ | M_End _ =>
      exact h.hushed (by simp [Event.Hushed, Event.sent, Event.audioOut?]) rfl

theorem AudioLaw.audioStep (h : AudioLaw t s) (hs : AudioStep P s evs s') : AudioLaw (t ++ evs) s' := by
  cases hs with
  | A_Exit _ hx =>
      obtain ⟨hev, heq⟩ := hx.hushed
      exact h.hushed hev (congrArg EventsPc.inFlight heq)
  | A_Frame _ _ _ | A_Closed _ _ | A_Error _ _ | A_NoError _ _ _ | A_Send _ _ =>
      exact h.hushed (by simp [Event.Hushed, Event.sent, Event.audioOut?]) rfl

/-- A frame of the LLM is converted on its own and passed to `Transport.Send` next. -/
theorem AudioLaw.eventsStep (hb : P.bridges = .ok (b, .pcm16LE24kToMulaw8k)) (h : AudioLaw t s)
    (hs : EventsStep P s evs s') : AudioLaw (t ++ evs) s' := by
  have hidle : ∀ {p : EventsPc V}, s.events = p → p.inFlight = [] → s.events.inFlight = [] := by
    rintro p rfl hp
    exact hp
  cases hs with
  | @E_Event b' ev l he hb' hr =>
      cases hb.symm.trans hb'
      cases ev with
      | audioOut f =>
          have hsent : sentBytes [Event.received (V := V) (.audioOut f)] = [] := rfl
          have hout : convertEach (audioOut [Event.received (V := V) (.audioOut f)]) = pcm16LE24kToMulaw8k f.data :=
            List.append_nil _
          rw [AudioLaw, hidle he rfl, List.append_nil] at h
          rw [AudioLaw, audioOut_append, convertEach_append, h, hout, sentBytes_append, hsent, List.append_nil]
          rfl
      | assistantText _ _ | callerTranscript _ | turnComplete | interrupted | toolCalls _ =>
          exact h.hushed (by simp [Event.Hushed, Event.sent, Event.audioOut?]) (hidle he rfl).symm
  | @E_Send f err he =>
      have hsent : sentBytes [Event.send f err] = f.data := List.append_nil _
      have hout : audioOut [Event.send f err] = [] := rfl
      rw [AudioLaw, he] at h
      rw [AudioLaw, audioOut_append, sentBytes_append, inFlight_eventsSent, hsent, hout, List.append_nil,
        List.append_nil]
      exact h
  | E_Act he =>
      refine h.hushed (fun ev hev => ?_) (hidle he rfl).symm
      rw [List.mem_singleton.mp hev]
      exact Action.shows_hushed _ _
  | E_Batch he hc => exact h.hushed hc.hushed (hidle he rfl).symm
  | E_Exit he hx => exact h.hushed hx.hushed.1 (hidle he rfl).symm
  | E_Closed he _ | E_Error he _ | E_Acted he | E_Finish he _ => exact h.hushed (by simp) (hidle he rfl).symm
  | E_NoError he _ _ => exact h.hushed (by simp) rfl

theorem AudioLaw.step (hb : P.bridges = .ok (b, .pcm16LE24kToMulaw8k)) (h : AudioLaw t s) (ho : Outcomes t s)
    (hs : Step P s evs s') : AudioLaw (t ++ evs) s' := by
  cases hs with
  | main hs => exact h.mainStep ho hs
  | audio hs => exact h.audioStep hs
  | events hs => exact h.eventsStep hb hs
  | filler hs =>
      cases hs with
      | F_Batch he hh => exact h.hushed hh.hushed (by rw [he]; rfl)
      | F_Over _ _ _ hh => exact h.hushed hh.hushed rfl
  | adapter hs =>
      cases hs with
      | @T_Tick _ e _ => exact h.hushed (by cases e <;> simp [Event.Hushed, Event.sent, Event.audioOut?]) rfl
      | @L_Tick _ e _ => exact h.hushed (by cases e <;> simp [Event.Hushed, Event.sent, Event.audioOut?]) rfl
  | env hs => cases hs <;> exact h.hushed (by simp [Event.Hushed, Event.sent, Event.audioOut?]) rfl

theorem AudioLaw.run (hb : P.bridges = .ok (b, .pcm16LE24kToMulaw8k)) {x : σ} {l : τ}
    (hr : Run (Step P) (State.init x l) t s) : AudioLaw t s := by
  refine (hr.invariant (I := fun t s => Outcomes t s ∧ AudioLaw t s) ⟨.init x l, rfl⟩ ?_).2
  intro t s evs s' h hs
  exact ⟨h.1.step hs, h.2.step hb h.1 hs⟩

theorem chunkFree_of_aligned (hb : P.bridges = .ok (b, .pcm16LE24kToMulaw8k)) (x : σ) (l : τ) {ls : List Nat}
    (h : Aligned ls) : ChunkFree P x l ls := by
  intro t s hr hflight _ hlen
  have hlaw := AudioLaw.run hb hr
  have hnil : s.events.inFlight = [] := by
    cases he : s.events with
    | sending f => exact absurd he (hflight f)
    | idle | select | acting _ | batch _ | exiting _ => rfl
  rw [AudioLaw, hnil, List.append_nil] at hlaw
  rw [← hlaw]
  exact convertEach_of_aligned (hlen ▸ h)

/-! ## A call in which the LLM speaks -/

section PhoneCall

variable {C : CallSetup}

/-- `Run` is in `LLM.Open`, and these messages have arrived. -/
def CallState.opening (pc : Gemini.OpenPc) (inbox : List (Option (Gemini.ServerMessage V))) : CallState V :=
  { CallState.init with
    main := .opening,
    llm := { openPc := pc, reader := { pc := .idle, vars := "", inbox := inbox, conn := .live, errs := none } } }

/-- The call has been answered: the streams and the goroutines are started, and nobody has spoken. -/
def CallState.answered : CallState V :=
  { CallState.init with
    main := .waiting, audio := .select, events := .select, transport := (Reader.fresh ()).start,
    llm := { openPc := .opened, reader := (Reader.fresh "").start } }

def setupComplete : Gemini.ServerMessage V :=
  { setupComplete := true, serverContent := none, toolCall := [] }

theorem replays (texts : List (String × String)) :
    Run (Step (phoneCall V C)) (CallState.opening (.replaying texts) []) [] (CallState.opening (.replaying []) []) := by
  induction texts with
  | nil => exact .refl
  | cons text texts ih =>
      have hstep : Step (phoneCall V C) (CallState.opening (.replaying (text :: texts)) []) []
          (CallState.opening (.replaying texts) []) := .main (.M_Open rfl (.O_Replay rfl))
      exact ih.cons hstep

def answerTrace (V : Type) (C : CallSetup) : List (Event V) :=
  [.opened none, .callback (.onHistoryInjected C.setup.history.length) false, .callback .onSessionStart false]

theorem answers (C : CallSetup) :
    Run (Step (phoneCall V C)) CallState.init (answerTrace V C) CallState.answered := by
  have hresolve : Step (phoneCall V C) CallState.init [] (CallState.opening .setup []) :=
    .main (.M_Resolved rfl (bridges_phoneCall C))
  have hawait : Run (Step (phoneCall V C)) CallState.init [] (CallState.opening .awaiting [some setupComplete]) :=
    ((Run.single hresolve).snoc (.main (.M_Open rfl (.O_Setup rfl)))).snoc
      (.env (.N_LLM ⟨_, .P_Send (some setupComplete) rfl, rfl⟩))
  have hcomplete : Run (Step (phoneCall V C)) CallState.init [] (CallState.opening (.replaying []) []) :=
    (hawait.snoc (.main (.M_Open rfl (.O_Complete rfl rfl rfl)))).trans (replays _)
  have hopen := hcomplete.snoc (.main (.M_Opened rfl (.O_Opened rfl)))
  have hinject := hopen.snoc (.main (.M_Injected (p := false) rfl))
  exact ((hinject.snoc (.main (.M_Receive rfl))).snoc (.main (.M_Events rfl))).snoc
    (.main (.M_Start (p := false) rfl))

def speech (data : List UInt8) : Gemini.ServerMessage V where
  setupComplete := false
  serverContent := some {
    inputTranscription := "", outputTranscription := "",
    modelTurn := [{ text := "", inlineData := some (.bytes data) }], interrupted := false, turnComplete := false }
  toolCall := []

theorem handle_speech (data : List UInt8) :
    Gemini.handle "" (some (speech (V := V) data)) =
      ("", .items [.audioOut { data := data, timestamp := 0 }]) := rfl

def spoken (data : List UInt8) : List (Event V) :=
  [.received (.audioOut { data := data, timestamp := 0 }),
    .send { data := pcm16LE24kToMulaw8k data, timestamp := 0 } none]

theorem speaks (C : CallSetup) (data : List UInt8) :
    Run (Step (phoneCall V C)) CallState.answered (spoken data) CallState.answered := by
  have htop : Step (phoneCall V C) CallState.answered [] _ := .adapter (.L_Tick (e := none) ⟨_, .R_Read rfl rfl, rfl⟩)
  have hread := (Run.single htop).snoc (.env (.N_LLM ⟨_, .P_Send (some (speech data)) rfl, rfl⟩))
  have hitem := (hread.snoc (.adapter (.L_Tick ⟨_, .R_Items rfl nofun rfl (handle_speech data), rfl⟩))).snoc
    (.adapter (.L_Tick ⟨_, .R_Prepare rfl rfl, rfl⟩))
  exact (hitem.snoc (.events (.E_Event rfl (bridges_phoneCall C) ⟨_, .C_Item rfl, rfl⟩))).snoc
    (.events (.E_Send none rfl))

theorem speaksAll (C : CallSetup) (pieces : List (List UInt8)) :
    Run (Step (phoneCall V C)) CallState.answered (pieces.flatMap spoken) CallState.answered := by
  induction pieces with
  | nil => exact .refl
  | cons data pieces ih => exact (speaks C data).trans ih

theorem audioOut_spoken (pieces : List (List UInt8)) : audioOut (pieces.flatMap (spoken (V := V))) = pieces := by
  induction pieces with
  | nil => rfl
  | cons data pieces ih =>
      rw [List.flatMap_cons, audioOut_append, ih]
      rfl

theorem sentBytes_spoken (pieces : List (List UInt8)) :
    sentBytes (pieces.flatMap (spoken (V := V))) = convertEach pieces := by
  induction pieces with
  | nil => rfl
  | cons data pieces ih =>
      rw [List.flatMap_cons, sentBytes_append, ih]
      simp [sentBytes, spoken, Event.sent, convertEach]

theorem callerHears (C : CallSetup) (pieces : List (List UInt8)) :
    ∃ t, Run (Step (phoneCall V C)) CallState.init t CallState.answered ∧ (∀ f e, .send f (some e) ∉ t) ∧
      audioOut t = pieces ∧ sentBytes t = convertEach pieces := by
  refine ⟨_, (answers C).trans (speaksAll C pieces), ?_, ?_, ?_⟩
  · intro f e hmem
    rcases List.mem_append.mp hmem with hmem | hmem
    · simp [answerTrace] at hmem
    · obtain ⟨data, _, hd⟩ := List.mem_flatMap.mp hmem
      simp [spoken] at hd
  · rw [audioOut_append, audioOut_spoken]
    rfl
  · rw [sentBytes_append, sentBytes_spoken]
    rfl

theorem aligned_of_chunkFree {ls : List Nat}
    (h : ChunkFree (phoneCall V C) (.fresh ()) Gemini.State.fresh ls) : Aligned ls := by
  refine Classical.byContradiction fun hn => ?_
  obtain ⟨pieces, hlen, hdiff⟩ := exists_differs_of_not_aligned ls hn
  obtain ⟨t, hr, hsend, hout, hsent⟩ := callerHears (V := V) C pieces
  have heq := h t _ hr nofun hsend (by rw [hout, hlen])
  rw [hout, hsent] at heq
  exact hdiff heq

end PhoneCall

end Gopkg.Voice
