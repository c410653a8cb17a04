import Mathlib.Data.List.Forall2
import Gopkg.Voice.Twilio.Theorems
import Gopkg.Voice.Wire.Lemmas.Readers
import Gopkg.Voice.Wire.Lemmas.Sends

/-!
# A call from one connection to the other
-/

namespace Gopkg.Voice.Wire

open Lts

variable {V : Type} {C : CallSetup} {t : List (Seen V)} {s : CallState V}

/-! ## What the messages of Gemini carry -/

def audioData? : LLMEvent V → Option (List UInt8)
  | .audioOut f => some f.data
  | _ => none

theorem audioOut_eq (evs : List (Event V)) : audioOut evs = (received evs).filterMap audioData? := by
  rw [audioOut, received, List.filterMap_filterMap]
  refine congrArg (fun f => evs.filterMap f) (funext fun ev => ?_)
  cases ev with
  | received ev => cases ev <;> rfl
  | _ => rfl

/-- Nothing is made of words and of turns. -/
structure Wordless {γ : Type} (g : LLMEvent V → Option γ) : Prop where
  transcript : ∀ text, g (.callerTranscript text) = none
  words : ∀ text final, g (.assistantText text final) = none
  interrupted : g .interrupted = none
  turn : g .turnComplete = none

theorem Wordless.content {γ : Type} {g : LLMEvent V → Option γ} (h : Wordless g) (text : String)
    (c : Gemini.ServerContent) : (Gemini.contentEvents text c).1.filterMap g =
      c.modelTurn.flatMap fun p => (Gemini.partEvents p).1.filterMap g := by
  have hparts : (((c.modelTurn.map Gemini.partEvents).map (·.1)).flatten).filterMap g =
      c.modelTurn.flatMap fun p => (Gemini.partEvents p).1.filterMap g := by
    rw [List.map_map, List.filterMap_flatten, List.map_map, ← List.flatMap_def]
    rfl
  unfold Gemini.contentEvents
  dsimp only
  simp only [List.filterMap_append, hparts]
  split_ifs <;> simp [h.transcript, h.words, h.interrupted, h.turn]

theorem wordless_audioData : Wordless (audioData? (V := V)) := ⟨fun _ => rfl, fun _ _ => rfl, rfl, rfl⟩

theorem wordless_calls : Wordless (calls? (V := V)) := ⟨fun _ => rfl, fun _ _ => rfl, rfl, rfl⟩

theorem part_audio (p : Gemini.Part) : (Gemini.partEvents (V := V) p).1.filterMap audioData? = partAudio p := by
  obtain ⟨text, data⟩ := p
  unfold Gemini.partEvents partAudio
  cases data with
  | none => dsimp only; split <;> rfl
  | some payload =>
      cases payload with
      | malformed => rfl
      | empty | bytes _ => dsimp only; split <;> rfl

theorem part_calls (p : Gemini.Part) : (Gemini.partEvents (V := V) p).1.filterMap calls? = [] := by
  obtain ⟨text, data⟩ := p
  unfold Gemini.partEvents
  cases data with
  | none => dsimp only; split <;> rfl
  | some payload =>
      cases payload with
      | malformed => rfl
      | empty | bytes _ => dsimp only; split <;> rfl

theorem handle_audio (text : String) (m : Option (Gemini.ServerMessage V)) :
    (Gemini.handle text m).2.toList.filterMap audioData? = modelAudio m := by
  cases m with
  | none => rfl
  | some msg =>
      obtain ⟨setup, content, calls⟩ := msg
      have hcalls : (if calls = [] then [] else [LLMEvent.toolCalls calls]).filterMap audioData? = [] := by
        split <;> rfl
      cases content with
      | none => exact hcalls
      | some c =>
          change ((Gemini.contentEvents text c).1 ++
            if calls = [] then [] else [LLMEvent.toolCalls calls]).filterMap _ = _
          rw [List.filterMap_append, hcalls, List.append_nil, wordless_audioData.content]
          exact congrArg c.modelTurn.flatMap (funext part_audio)

theorem handle_calls (text : String) (m : Option (Gemini.ServerMessage V)) :
    called (Gemini.handle text m).2.toList = functionCalls m := by
  cases m with
  | none => rfl
  | some msg =>
      obtain ⟨setup, content, calls⟩ := msg
      have hcalls : called (if calls = [] then [] else [LLMEvent.toolCalls calls]) =
          if calls = [] then [] else [calls] := by
        split <;> rfl
      cases content with
      | none => exact hcalls
      | some c =>
          change called ((Gemini.contentEvents text c).1 ++ if calls = [] then [] else [.toolCalls calls]) = _
          rw [called_append, hcalls, called, wordless_calls.content]
          simp [part_calls, functionCalls]

theorem translate_audio (ms : List (Option (Gemini.ServerMessage V))) :
    (Gemini.translate ms).1.filterMap audioData? = ms.flatMap modelAudio := by
  induction ms using List.reverseRecOn with
  | nil => rfl
  | append_singleton ms m ih =>
      rw [Gemini.translate_snoc, Gemini.consume, List.filterMap_append, ih, handle_audio, List.flatMap_append,
        List.flatMap_singleton]

theorem translate_calls (ms : List (Option (Gemini.ServerMessage V))) :
    called (Gemini.translate ms).1 = ms.flatMap functionCalls := by
  induction ms using List.reverseRecOn with
  | nil => rfl
  | append_singleton ms m ih =>
      rw [Gemini.translate_snoc, Gemini.consume, called_append, ih, handle_calls, List.flatMap_append,
        List.flatMap_singleton]

/-! ## What is written -/

theorem decode_encodeToString (data : List UInt8) : Base64.decode (Twilio.encodeToString data).toList = some data := by
  rw [Twilio.encodeToString, String.toList_ofList, Base64.decode_encode]

theorem toGemini_audio (text : V → String) (t : List (Seen V)) :
    (toGemini text t).filterMap ClientMessage.audio = (acceptedFrames (events t)).map (·.data) := by
  rw [toGemini, acceptedFrames, List.filterMap_filterMap, List.map_filterMap]
  refine congrArg (fun f => (events t).filterMap f) (funext fun ev => ?_)
  cases ev with
  | sendAudio f err =>
      cases err with
      | none => exact decode_encodeToString f.data
      | some _ => rfl
  | sendToolResults _ err => cases err <;> rfl
  | _ => rfl

/-- The tool responses that are written are those of the calls without an error. -/
theorem toGemini_toolResponse (text : V → String) (t : List (Seen V)) :
    (toGemini text t).filterMap ClientMessage.toolResponse? =
      ((toolSends t).filter (·.2.isNone)).map (·.1.map (functionResponse text)) := by
  rw [toGemini, toolSends, List.filterMap_filterMap, List.filter_filterMap, List.map_filterMap]
  refine congrArg (fun f => (events t).filterMap f) (funext fun ev => ?_)
  cases ev with
  | sendAudio _ err | sendToolResults _ err => cases err <;> rfl
  | _ => rfl

theorem sent_toolSteps (t : List (Seen V)) : sent (toolSteps (events t)) = (toolSends t).map (·.1) := by
  rw [sent, toolSteps, toolSends, List.filterMap_filterMap, List.map_filterMap]
  refine congrArg (fun f => (events t).filterMap f) (funext fun ev => ?_)
  cases ev with
  | callback c _ => cases c <;> rfl
  | _ => rfl

/-- The audio of a message to Twilio, decoded. -/
def mediaBytes (m : Twilio.OutMessage) : List UInt8 := (m.media.bind fun text => Base64.decode text.toList).getD []

theorem voice_bytes (streamSid : String) (t : List (Seen V)) :
    (voice streamSid t).flatMap mediaBytes = (heardFrames (events t)).flatMap (·.data) := by
  rw [voice, heardFrames, List.filterMap_eq_flatMap_toList, List.filterMap_eq_flatMap_toList, List.flatMap_assoc,
    List.flatMap_assoc]
  refine congrArg (events t).flatMap (funext fun ev => ?_)
  cases ev with
  | send f err =>
      cases err with
      | none =>
          change mediaBytes (Twilio.send streamSid f) ++ [] = f.data ++ []
          rw [mediaBytes, Twilio.send]
          exact congrArg (·.getD [] ++ []) (decode_encodeToString f.data)
      | some _ => rfl
  | _ => rfl

theorem sentBytes_eq (evs : List (Event V)) : sentBytes evs = (spokenFrames evs).flatMap (·.data) := by
  rw [sentBytes, spokenFrames, List.filterMap_eq_flatMap_toList, List.flatMap_assoc]
  refine congrArg evs.flatMap (funext fun ev => ?_)
  cases ev with
  | send f _ => exact (List.append_nil _).symm
  | _ => rfl

/-! ## Main theorems -/

/-- All that has come from Twilio was sent on, and the goroutine waits for more. -/
structure CallerDone (s : CallState V) : Prop where
  live : s.done = false
  inbox : s.transport.inbox = []
  pending : s.transport.pc.pending Frame.data = []
  waiting : s.audio = .select

/-- All that has come from Gemini was dispatched. -/
structure ModelDone (s : CallState V) : Prop where
  waiting : s.main = .waiting
  live : s.done = false
  inbox : s.llm.reader.inbox = []
  pending : s.llm.reader.pc.pending id = []
  dispatched : s.events = .select

/-- In every interleaving the audio that comes from Twilio is written to Gemini, frame by frame and in order, and the
audio of Gemini's messages after the first one is written to Twilio, in order. Nothing is missing when all that has come
was handled and the goroutines go on. -/
theorem call_carries_audio (text : V → String) (streamSid : String) (hr : Run (CallStep C) CallState.init t s) :
    (toGemini text t).filterMap ClientMessage.audio <+:
        ((fromTwilio t).flatMap Twilio.audio).map Audio.mulaw8kToPCM16LE16k ∧
      (CallerDone s → (toGemini text t).filterMap ClientMessage.audio =
        ((fromTwilio t).flatMap Twilio.audio).map Audio.mulaw8kToPCM16LE16k) ∧
      (voice streamSid t).flatMap mediaBytes <+: Audio.convertEach ((fromGemini t).tail.flatMap modelAudio) ∧
      (ModelDone s → (voice streamSid t).flatMap mediaBytes =
        Audio.convertEach ((fromGemini t).tail.flatMap modelAudio)) := by
  obtain ⟨got, read, lost, hreading, hframes⟩ := CallerLaw.run hr
  have hmodel := ModelLaw.run hr
  have hvoice := AudioLaw.run (bridges_phoneCall C) (forget_run hr)
  have hkept := SendsKept.run (forget_run hr)
  have hdata : got.map (fun f => Audio.mulaw8kToPCM16LE16k f.data) =
      (sentFrames (events t)).map (·.data) ++ (inHand s.audio).map (·.data) := by
    rw [← List.map_append, ← hframes, List.map_map]
    rfl
  rw [AudioLaw, audioOut_eq, sentBytes_eq] at hvoice
  rw [toGemini_audio, voice_bytes, ← Twilio.translate_eq, ← translate_audio]
  refine ⟨?_, fun h => ?_, ?_, fun h => ?_⟩
  · have hbegins := hreading.taken_begins.map Audio.mulaw8kToPCM16LE16k
    rw [List.map_map] at hbegins
    have htaken : (sentFrames (events t)).map (·.data) <+: got.map (Audio.mulaw8kToPCM16LE16k ∘ Frame.data) :=
      ⟨_, hdata.symm⟩
    exact ((hkept.audio.begins.map _).trans htaken).trans hbegins
  · have hselect : ¬ s.audio.Leaving := by
      rw [h.waiting]
      exact id
    rw [h.waiting] at hdata
    rw [hkept.audio.whole hselect, ← hreading.taken_all h.live h.inbox h.pending, List.map_map]
    exact ((List.append_nil _).symm.trans hdata.symm)
  · obtain ⟨more, hmore⟩ := hmodel.begins.filterMap audioData?
    obtain ⟨failed, hfailed⟩ := hkept.voice.begins
    rw [← hmore, convertEach_append, hvoice, ← hfailed, List.flatMap_append, List.append_assoc, List.append_assoc]
    exact List.prefix_append _ _
  · have hselect : ¬ s.events.Leaving := by
      rw [h.dispatched]
      exact id
    rw [← hmodel.whole (by rw [h.waiting]; trivial) h.live h.inbox h.pending, hvoice, h.dispatched,
      hkept.voice.whole hselect]
    exact (List.append_nil _).symm

/-- A call without history, with one tool at a time. -/
def shortCall : CallSetup where
  filler := silentFiller
  toolConcurrency := 1
  positive := Nat.one_pos
  setup := { history := [], wakeSignal := "" }

theorem answered_call : ∃ t : List (Seen Unit), Run (CallStep shortCall) CallState.init t CallState.answered ∧
    fromTwilio t = [] ∧ fromGemini t = [some setupComplete] ∧ toolSends t = [] := by
  have hresolve : CallStep shortCall (CallState.init : CallState Unit) _ _ :=
    .own (.main (.M_Resolved rfl (bridges_phoneCall shortCall)))
  have hawait := ((Run.single hresolve).snoc (.own (.main (.M_Open rfl (.O_Setup rfl))))).snoc
    (.W_Gemini (some setupComplete) rfl)
  have hopen := (hawait.snoc (.own (.main (.M_Open rfl (.O_Complete rfl rfl rfl))))).snoc
    (.own (.main (.M_Opened rfl (.O_Opened rfl))))
  have hstart := ((hopen.snoc (.own (.main (.M_Injected (p := false) rfl)))).snoc (.own (.main (.M_Receive rfl)))).snoc
    (.own (.main (.M_Events rfl)))
  exact ⟨_, hstart.snoc (.own (.main (.M_Start (p := false) rfl))), rfl, rfl, rfl⟩

theorem caller_speaks (data : List UInt8) (hdata : data ≠ []) : ∃ t : List (Seen Unit),
    Run (CallStep shortCall) CallState.answered t CallState.answered ∧
      fromTwilio t = [some (Twilio.send "MZ" ⟨data, 0⟩).read] ∧ fromGemini t = [] := by
  have htop : CallStep shortCall (CallState.answered : CallState Unit) _ _ :=
    .own (.adapter (.T_Tick (e := none) (.R_Read rfl rfl)))
  have hread := ((Run.single htop).snoc (.W_Twilio (some (Twilio.send "MZ" ⟨data, 0⟩).read) rfl)).snoc
    (.own (.adapter (.T_Tick (.R_Items rfl nofun rfl (congrArg _ (Twilio.handle_read_send "MZ" hdata))))))
  have hmade : Twilio.readLoop.prepare data ⟨data, 0⟩ := rfl
  have hframe := (hread.snoc (.own (.adapter (.T_Tick (.R_Prepare rfl hmade))))).snoc
    (.own (.audio (.A_Frame rfl (bridges_phoneCall shortCall) (.C_Item rfl))))
  exact ⟨_, hframe.snoc (.own (.audio (.A_Send none rfl))), rfl, rfl⟩

theorem model_speaks (data : List UInt8) : ∃ t : List (Seen Unit),
    Run (CallStep shortCall) CallState.answered t CallState.answered ∧ fromTwilio t = [] ∧
      fromGemini t = [some (speech data)] := by
  have htop : CallStep shortCall (CallState.answered : CallState Unit) _ _ :=
    .own (.adapter (.L_Tick (e := none) ⟨_, .R_Read rfl rfl, rfl⟩))
  have hread := ((Run.single htop).snoc (.W_Gemini (some (speech data)) rfl)).snoc
    (.own (.adapter (.L_Tick ⟨_, .R_Items rfl nofun rfl (handle_speech data), rfl⟩)))
  have hitem := (hread.snoc (.own (.adapter (.L_Tick ⟨_, .R_Prepare rfl rfl, rfl⟩)))).snoc
    (.own (.events (.E_Event rfl (bridges_phoneCall shortCall) ⟨_, .C_Item rfl, rfl⟩)))
  exact ⟨_, hitem.snoc (.own (.events (.E_Send none rfl))), rfl, rfl⟩

/-- The caller says something, and then the model. -/
theorem call_carries_audio_both : ∃ t : List (Seen Unit), Run (CallStep shortCall) CallState.init t CallState.answered ∧
    (toGemini toString t).filterMap ClientMessage.audio = [Audio.mulaw8kToPCM16LE16k [255, 0]] ∧
    (voice "MZ" t).flatMap mediaBytes = Audio.pcm16LE24kToMulaw8k [0, 0, 0, 0, 0, 0] := by
  obtain ⟨t₁, hanswer, htwilio₁, hgemini₁, -⟩ := answered_call
  obtain ⟨t₂, hcaller, htwilio₂, hgemini₂⟩ := caller_speaks [255, 0] nofun
  obtain ⟨t₃, hmodel, htwilio₃, hgemini₃⟩ := model_speaks [0, 0, 0, 0, 0, 0]
  have hrun := (hanswer.trans hcaller).trans hmodel
  obtain ⟨-, hheard, -, hvoice⟩ := call_carries_audio toString "MZ" hrun
  refine ⟨_, hrun, (hheard ⟨rfl, rfl, rfl, rfl⟩).trans ?_, (hvoice ⟨rfl, rfl, rfl, rfl, rfl⟩).trans ?_⟩
  · rw [fromTwilio_append, fromTwilio_append, htwilio₁, htwilio₂, htwilio₃]
    exact congrArg (List.map Audio.mulaw8kToPCM16LE16k)
      ((List.append_nil _).trans (Twilio.audio_read "MZ" (.send ⟨[255, 0], 0⟩)))
  · rw [fromGemini_append, fromGemini_append, hgemini₁, hgemini₂, hgemini₃]
    exact List.append_nil _

/-- The entry is under the ID of the call, and it has the data that the execution has returned, or the text of the error
or of the panic. -/
structure Entry (text : V → String) (c : ToolCall V) (o : Outcome V) (f : FunctionResponse V) : Prop where
  id : f.id = c.id
  returned : ∀ data, o = .returned data none → f.response = .data data
  failed : ∀ data err, o = .returned data (some err) → f.response = .error (errorText text err)
  panicked : ∀ v, o = .panicked v → f.response = .error ("pipeline: tool executor panicked: " ++ text v)

/-- The message has one entry for each call of the batch, in the order of the calls. -/
structure Replies (text : V → String) (p : Reply V) (m : List (FunctionResponse V)) : Prop where
  length_eq : m.length = p.calls.length
  entry : ∀ (i : Nat) c o f, p.calls[i]? = some c → p.outcomes[i]? = some o → m[i]? = some f → Entry text c o f

theorem Carries.entry {text : V → String} {c : ToolCall V} {o : Outcome V} {r : ToolResult V} (h : Carries c o r) :
    Entry text c o (functionResponse text r) where
  id := h.callID
  returned data ho := by
    obtain ⟨hdata, herr⟩ := h.returned data none ho
    simp only [functionResponse, herr, hdata]
  failed data err ho := by
    obtain ⟨-, herr⟩ := h.returned data (some err) ho
    simp only [functionResponse, herr]
  panicked v ho := by
    obtain ⟨-, herr⟩ := h.panicked v ho
    simp only [functionResponse, herr]
    rfl

theorem Served.replies {text : V → String} {p : Reply V} {steps : List (ToolStep V)}
    (h : Served p.calls p.outcomes p.results steps) : Replies text p (p.results.map (functionResponse text)) where
  length_eq := by rw [List.length_map, h.results_length]
  entry i c o f hc ho hf := by
    rw [List.getElem?_map] at hf
    obtain ⟨r, hr, rfl⟩ := Option.map_eq_some_iff.mp hf
    exact Carries.entry (h.carries i c o r hc ho hr)

theorem exists_paired {α β γ : Type} {f : β → α} {l : List (α × γ)} {bs : List β} (h : l.map (·.1) = bs.map f) :
    ∃ ps : List (β × γ), ps.map (·.1) = bs ∧ l = ps.map fun p => (f p.1, p.2) := by
  induction l generalizing bs with
  | nil => exact ⟨[], (List.map_eq_nil_iff.mp h.symm).symm, rfl⟩
  | cons x l ih =>
      obtain ⟨b, bs, rfl, hb, hbs⟩ := List.map_eq_cons_iff.mp h.symm
      obtain ⟨ps, rfl, rfl⟩ := ih hbs.symm
      exact ⟨(b, x.2) :: ps, rfl, by rw [List.map_cons, hb]⟩

/-- In every interleaving the batches of function calls of Gemini's messages after the first one are served one by one
and in order: `SendToolResults` is called once for each, and what it writes when it returns nil answers the calls of
that batch. Only the last batches can be missing, and none is when all that has come was handled. -/
theorem calls_answered (text : V → String) (hr : Run (CallStep C) CallState.init t s) :
    ∃ (served : List (Reply V × Option (Err V))) (before rest : List (ToolStep V)),
      served.map (·.1.calls) <+: (fromGemini t).tail.flatMap functionCalls ∧
      toolSends t = served.map (fun p => (p.1.results, p.2)) ∧
      List.Forall₂ (fun p m => Replies text p.1 m) (served.filter (·.2.isNone))
        ((toGemini text t).filterMap ClientMessage.toolResponse?) ∧
      toolSteps (events t) = before ++ rest ∧ Answered (served.map (·.1)) before ∧ sent rest = [] ∧
      (ModelDone s → served.map (·.1.calls) = (fromGemini t).tail.flatMap functionCalls) := by
  have hmodel := ModelLaw.run hr
  obtain ⟨replies, before, rest, hcalled, hsteps, hanswered, hrest, hall⟩ := (ToolsLaw.run (forget_run hr)).answered
  -- the calls of `SendToolResults` are those of the batches that were served
  have hsent : (toolSends t).map (·.1) = replies.map (·.results) := by
    rw [← sent_toolSteps, hsteps, sent_append, hrest, List.append_nil, hanswered.sent_eq]
  obtain ⟨served, rfl, hsends⟩ := exists_paired hsent
  rw [List.map_map] at hcalled hall
  refine ⟨served, before, rest, ?_, hsends, ?_, hsteps, hanswered, hrest, fun h => ?_⟩
  · rw [← translate_calls]
    exact hcalled.trans (hmodel.begins.filterMap calls?)
  · rw [toGemini_toolResponse, hsends, List.filter_map, List.map_map, List.forall₂_map_right_iff]
    refine List.forall₂_same.mpr fun p hp => ?_
    obtain ⟨steps, hserved⟩ := hanswered.served p.1 (List.mem_map_of_mem (List.mem_of_mem_filter hp))
    exact Served.replies hserved
  · rw [← translate_calls, ← hmodel.whole (by rw [h.waiting]; trivial) h.live h.inbox h.pending]
    exact (hall (by rw [h.dispatched]; nofun)).symm

def question : ToolCall Unit := { id := "call-1", name := "lookup", args := () }

def booking : ToolCall Unit := { id := "call-2", name := "book", args := () }

/-- The batch of two calls at its end. The second one has panicked. -/
def answer : Batch Unit where
  calls := [question, booking]
  pc := .finished
  workers := [.gone, .gone]
  results := [{ callID := "call-1", data := some (), err := none },
    { callID := "call-2", data := none, err := some (.toolExecutorPanicked ()) }]
  sem := 0
  wg := 0
  done := true
  holdCancelled := true
  hold := .waiting

theorem answers_question : ∃ t, Run (CoreStep 1) (.init [question, booking]) t answer ∧
    t.filterMap toolSend? = [(answer.results, none)] := by
  have hcall : CoreStep 1 (.init [question, booking]) [.callback (.onToolCall question) false] _ := .B_Announce rfl rfl
  have hspawn := ((((Run.single hcall).snoc (.B_Announce (p := false) rfl rfl)).snoc (.B_Watch rfl)).snoc
    (.B_Add rfl (by decide))).snoc (.B_Acquire rfl Nat.one_pos)
  have hfirst := ((hspawn.snoc (.B_Begin (i := 0) rfl)).snoc (.B_End (i := 0) (.returned (some ()) none) rfl)).snoc
    (.B_Store (i := 0) (c := question) rfl rfl)
  have hnext := ((hfirst.snoc (.B_Release (i := 0) rfl Nat.one_pos)).snoc (.B_Add rfl (by decide))).snoc
    (.B_Acquire rfl Nat.one_pos)
  have hsecond := ((hnext.snoc (.B_Begin (i := 1) rfl)).snoc (.B_End (i := 1) (.panicked ()) rfl)).snoc
    (.B_Store (i := 1) (c := booking) rfl rfl)
  have hgone := ((hsecond.snoc (.B_Release (i := 1) rfl Nat.one_pos)).snoc (.B_Done (i := 0) rfl)).snoc
    (.B_Done (i := 1) rfl)
  have hclear := ((((hgone.snoc (.B_Spawned rfl)).snoc (.B_Wait rfl rfl)).snoc (.B_CloseDone rfl)).snoc
    (.B_CancelHold rfl)).snoc (.B_Clear rfl)
  have hresponded := ((hclear.snoc (.B_Respond (p := false) rfl rfl rfl)).snoc
    (.B_Respond (p := false) rfl rfl rfl)).snoc (.B_Responded rfl)
  exact ⟨_, hresponded.snoc (.B_Send rfl), rfl⟩

def request : Gemini.ServerMessage Unit where
  setupComplete := false
  serverContent := none
  toolCall := [question, booking]

theorem model_asks : ∃ (t : List (Seen Unit)) (s : CallState Unit), Run (CallStep shortCall) CallState.answered t s ∧
    ModelDone s ∧ fromGemini t = [some request] ∧ toolSends t = [(answer.results, none)] := by
  have hhandle : Gemini.handle "" (some request) = ("", .items [.toolCalls [question, booking]]) := rfl
  have htop : CallStep shortCall (CallState.answered : CallState Unit) _ _ :=
    .own (.adapter (.L_Tick (e := none) ⟨_, .R_Read rfl rfl, rfl⟩))
  have hread := ((Run.single htop).snoc (.W_Gemini (some request) rfl)).snoc
    (.own (.adapter (.L_Tick ⟨_, .R_Items rfl nofun rfl hhandle, rfl⟩)))
  have hitem := (hread.snoc (.own (.adapter (.L_Tick ⟨_, .R_Prepare rfl rfl, rfl⟩)))).snoc
    (.own (.events (.E_Event rfl (bridges_phoneCall shortCall) ⟨_, .C_Item rfl, rfl⟩)))
  obtain ⟨tb, hbatch, hsends⟩ := answers_question
  have hserve : Run (CallStep shortCall) _ (tb.map Seen.event) _ :=
    hbatch.simulate (f := fun bt => { (CallState.answered : CallState Unit) with events := .batch bt }) rfl
      (fun _ _ => List.map_append) fun _ _ _ hs => .single (.own (.events (.E_Batch rfl hs)))
  refine ⟨_, _, (hitem.trans hserve).snoc (.own (.events (.E_Finish rfl rfl))), ⟨rfl, rfl, rfl, rfl, rfl⟩, ?_, ?_⟩
  · rw [fromGemini_append, fromGemini_append, fromGemini_map]
    rfl
  · rw [toolSends, events_append, events_append, events_map, List.filterMap_append, List.filterMap_append, hsends]
    rfl

/-- The model calls two functions in one message. -/
theorem calls_answered_two : ∃ (t : List (Seen Unit)) (s : CallState Unit) (p : Reply Unit)
    (m : List (FunctionResponse Unit)), Run (CallStep shortCall) CallState.init t s ∧ p.calls = [question, booking] ∧
      (toGemini toString t).filterMap ClientMessage.toolResponse? = [m] ∧ Replies toString p m := by
  obtain ⟨t₁, hanswer, -, hgemini₁, hsends₁⟩ := answered_call
  obtain ⟨t₂, s, hasks, hdone, hgemini₂, hsends₂⟩ := model_asks
  have hrun := hanswer.trans hasks
  obtain ⟨served, -, -, -, hsends, hreplies, -, -, -, hall⟩ := calls_answered toString hrun
  have hbatches := hall hdone
  rw [fromGemini_append, hgemini₁, hgemini₂] at hbatches
  obtain ⟨p, rfl, hp⟩ := List.map_eq_singleton_iff.mp (hbatches : served.map (·.1.calls) = [[question, booking]])
  have hnone : p.2 = none := by
    rw [toolSends, events_append, List.filterMap_append, ← toolSends, ← toolSends, hsends₁, hsends₂] at hsends
    exact (congrArg Prod.snd (List.singleton_inj.mp hsends)).symm
  rw [List.filter_cons_of_pos (by rw [hnone]; rfl), List.filter_nil] at hreplies
  obtain ⟨m, ms, hm, hnil, heq⟩ := List.forall₂_cons_left_iff.mp hreplies
  rw [List.forall₂_nil_left_iff.mp hnil] at heq
  exact ⟨_, s, p.1, m, hrun, hp, heq, hm⟩

end Gopkg.Voice.Wire
