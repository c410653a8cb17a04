import Gopkg.Voice.Reader

/-!
# Gemini Live

`voice/llm/gemini/llm.go`.
-/

namespace Gopkg.Voice.Gemini

variable {V : Type}

structure Part where
  text : String
  inlineData : Option Payload
  deriving DecidableEq, Repr

/-- The fields of `serverContent`; an absent transcription or model turn is empty. -/
structure ServerContent where
  inputTranscription : String
  outputTranscription : String
  modelTurn : List Part
  interrupted : Bool
  turnComplete : Bool
  deriving DecidableEq, Repr

/-- The fields of `GeminiServerMessage` that `Open` and `Events` read. -/
structure ServerMessage (V : Type) where
  setupComplete : Bool
  serverContent : Option ServerContent
  toolCall : List (ToolCall V)
  deriving DecidableEq, Repr

/-- The events of one part, and the text it adds to the turn. A part whose data does not decode is
skipped, its text as well. -/
def partEvents (p : Part) : List (LLMEvent V) × String :=
  match p.inlineData with
  | some .malformed => ([], "")
  | some (.bytes data) =>
      if p.text = "" then ([.audioOut { data := data, timestamp := 0 }], "")
      else ([.audioOut { data := data, timestamp := 0 }, .assistantText p.text false], p.text)
  | some .empty | none => if p.text = "" then ([], "") else ([.assistantText p.text false], p.text)

/-- The events of the content, and the text of the turn after it. -/
def contentEvents (turnText : String) (c : ServerContent) : List (LLMEvent V) × String :=
  let input := if c.inputTranscription = "" then [] else [.callerTranscript c.inputTranscription]
  let output := if c.outputTranscription = "" then [] else [.assistantText c.outputTranscription false]
  let parts := c.modelTurn.map partEvents
  let text := turnText ++ c.outputTranscription ++ String.join (parts.map (·.2))
  let interrupted := if c.interrupted then [.interrupted] else []
  let final := if text = "" then [] else [.assistantText text true]
  let ending := if c.turnComplete then final ++ [.turnComplete] else []
  (input ++ output ++ (parts.map (·.1)).flatten ++ interrupted ++ ending, if c.turnComplete then "" else text)

/-- One message of the connection; `none` is malformed JSON, which is skipped. -/
def handle (turnText : String) : Option (ServerMessage V) → String × Reaction (LLMEvent V)
  | none => (turnText, .items [])
  | some msg =>
      let calls := if msg.toolCall = [] then [] else [.toolCalls msg.toolCall]
      match msg.serverContent with
      | none => (turnText, .items calls)
      | some c =>
          let (evs, text) := contentEvents turnText c
          (text, .items (evs ++ calls))

def readLoop : ReadLoop (Option (ServerMessage V)) (LLMEvent V) (LLMEvent V) String where
  handle := handle
  prepare b a := a = b

/-! ## Opening the session -/

inductive OpenPc where
  | setup
  -- `conn.ReadJSON`, for the `setupComplete` message.
  | awaiting
  -- The texts to send, each with the text of its error.
  | replaying (texts : List (String × String))
  | opened
  deriving DecidableEq, Repr

structure State (V : Type) where
  openPc : OpenPc
  reader : Reader (Option (ServerMessage V)) (LLMEvent V) (LLMEvent V) String V
  deriving DecidableEq, Repr

/-- The user turns of the history that are not empty, and the wake signal. -/
def replayTexts (setup : SetupRequest) : List (String × String) :=
  (setup.history.filter fun turn => turn.content ≠ "" ∧ turn.role = .user).map
      (fun turn => (turn.content, "send history turn")) ++
    (if setup.wakeSignal = "" then [] else [(setup.wakeSignal, "send wake signal")])

/-- The steps of `Open`. It does not look at its context, and its read waits for the peer. -/
inductive OpenStep (setup : SetupRequest) : State V → Option (Option (Err V)) → State V → Prop
  | O_Setup {s : State V} : s.openPc = .setup → OpenStep setup s none { s with openPc := .awaiting }
  | O_SetupFailed {s : State V} {e : Err V} : s.openPc = .setup →
      OpenStep setup s (some (some (.wrapped "send setup" e))) { s with openPc := .opened }
  | O_Complete {s : State V} {m : ServerMessage V} {ms : List (Option (ServerMessage V))} : s.openPc = .awaiting →
      s.reader.inbox = some m :: ms → m.setupComplete = true →
      OpenStep setup s none
        { openPc := .replaying (replayTexts setup), reader := { s.reader with inbox := ms } }
  | O_Unexpected {s : State V} {m : ServerMessage V} {ms : List (Option (ServerMessage V))} {e : Err V} :
      s.openPc = .awaiting → s.reader.inbox = some m :: ms → m.setupComplete = false →
      OpenStep setup s (some (some (.wrapped "expected setupComplete, got" e)))
        { openPc := .opened, reader := { s.reader with inbox := ms } }
  | O_Malformed {s : State V} {ms : List (Option (ServerMessage V))} {e : Err V} : s.openPc = .awaiting →
      s.reader.inbox = none :: ms →
      OpenStep setup s (some (some (.wrapped "read setupComplete" e)))
        { openPc := .opened, reader := { s.reader with inbox := ms } }
  | O_ReadFailed {s : State V} {x : Ending V} {e : Err V} : s.openPc = .awaiting → s.reader.inbox = [] →
      s.reader.conn = .ended x →
      OpenStep setup s (some (some (.wrapped "read setupComplete" e))) { s with openPc := .opened }
  | O_Replay {s : State V} {text : String × String} {texts : List (String × String)} :
      s.openPc = .replaying (text :: texts) →
      OpenStep setup s none { s with openPc := .replaying texts }
  | O_ReplayFailed {s : State V} {text : String × String} {texts : List (String × String)} {e : Err V} :
      s.openPc = .replaying (text :: texts) →
      OpenStep setup s (some (some (.wrapped text.2 e))) { s with openPc := .opened }
  | O_Opened {s : State V} : s.openPc = .replaying [] →
      OpenStep setup s (some none) { s with openPc := .opened }

def State.fresh : State V := { openPc := .setup, reader := .fresh "" }

def llm (V : Type) (setup : SetupRequest) : LLM (State V) V where
  start s := { s with reader := s.reader.start }
  tick done s e s' := ∃ r, ReaderTick readLoop done s.reader e r ∧ s' = { s with reader := r }
  peer s s' := ∃ r, ReaderPeer s.reader r ∧ s' = { s with reader := r }
  recv _ s x s' := ∃ r, ReaderRecv s.reader x r ∧ s' = { s with reader := r }
  close s := { s with reader := s.reader.close }
  inboundFormat := { encoding := .pcm16le, sampleRate := 24000, channels := 1 }
  outboundFormat := { encoding := .pcm16le, sampleRate := 16000, channels := 1 }
  openStep _ := OpenStep setup

end Gopkg.Voice.Gemini
