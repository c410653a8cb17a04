import Gopkg.Voice.PhoneCall
import Gopkg.Voice.Twilio.Receive

/-!
# What goes over the connections of a call

A phone call with the messages that arrive from Twilio and from Gemini, and the messages that `SendAudio` and
`SendToolResults` of `voice/llm/gemini/llm.go` write. The JSON of a message is read and written by the library. A
message counts as written when its call has returned nil.
-/

namespace Gopkg.Voice.Wire

open Lts

variable {V : Type}

/-! ## Messages to Gemini -/

/-- `Error()` of an error; `text` is that of what comes from outside. -/
def errorText (text : V → String) : Err V → String
  | .external v => text v
  | .wrapped label err => label ++ ": " ++ errorText text err
  | .formatBridge pair => "pipeline: no codec bridge for format pair: " ++ pair
  | .toolExecutorPanicked v => "pipeline: tool executor panicked: " ++ text v
  | .canceled => "context canceled"
  | .deadlineExceeded => "context deadline exceeded"

/-- The field `response`: the data of the tool, or an object with the field `error`. -/
inductive Response (V : Type) where
  | data (value : Option V)
  | error (message : String)
  deriving DecidableEq, Repr

/-- `GeminiFunctionResponse` -/
structure FunctionResponse (V : Type) where
  id : String
  response : Response V
  deriving DecidableEq, Repr

inductive ClientMessage (V : Type) where
  -- `GeminiRealtimeInput` with its audio.
  | realtimeInput (data mimeType : String)
  -- `GeminiToolResponse`.
  | toolResponse (functionResponses : List (FunctionResponse V))
  deriving DecidableEq, Repr

def sendAudio (f : Frame) : ClientMessage V := .realtimeInput (Twilio.encodeToString f.data) "audio/pcm;rate=16000"

def functionResponse (text : V → String) (r : ToolResult V) : FunctionResponse V where
  id := r.callID
  response :=
    match r.err with
    | none => .data r.data
    | some err => .error (errorText text err)

def sendToolResults (text : V → String) (results : List (ToolResult V)) : ClientMessage V :=
  .toolResponse (results.map (functionResponse text))

/-! ## Steps of a call -/

inductive Seen (V : Type) where
  | event (ev : Event V)
  | fromTwilio (m : Option Twilio.Message)
  | fromGemini (m : Option (Gemini.ServerMessage V))

/-- The steps of the session, with what the peers send. -/
inductive CallStep (C : CallSetup) : CallState V → List (Seen V) → CallState V → Prop
  | own {s s' : CallState V} {evs : List (Event V)} : LocalStep C s evs s' → CallStep C s (evs.map .event) s'
  | filler {s s' : CallState V} {evs : List (Event V)} : FillerStep (phoneCall V C) s evs s' →
      CallStep C s (evs.map .event) s'
  | W_Twilio {s : CallState V} (m : Option Twilio.Message) : s.transport.conn = .live →
      CallStep C s [.fromTwilio m] { s with transport := { s.transport with inbox := s.transport.inbox ++ [m] } }
  | W_TwilioEnds {s : CallState V} (e : Ending V) : s.transport.conn = .live →
      CallStep C s [] { s with transport := { s.transport with conn := .ended e } }
  | W_Gemini {s : CallState V} (m : Option (Gemini.ServerMessage V)) : s.llm.reader.conn = .live →
      CallStep C s [.fromGemini m]
        { s with llm := { s.llm with reader := { s.llm.reader with inbox := s.llm.reader.inbox ++ [m] } } }
  | W_GeminiEnds {s : CallState V} (e : Ending V) : s.llm.reader.conn = .live →
      CallStep C s [] { s with llm := { s.llm with reader := { s.llm.reader with conn := .ended e } } }
  | W_Context {s : CallState V} {e : Err V} : s.ctx = none → e = .canceled ∨ e = .deadlineExceeded →
      CallStep C s [.event (.contextDone e)] { s with ctx := some e, runCtx := s.runCtx.or (some e) }

/-! ## What was seen -/

def events (t : List (Seen V)) : List (Event V) :=
  t.filterMap fun
    | .event ev => some ev
    | _ => none

def fromTwilio (t : List (Seen V)) : List (Option Twilio.Message) :=
  t.filterMap fun
    | .fromTwilio m => some m
    | _ => none

def fromGemini (t : List (Seen V)) : List (Option (Gemini.ServerMessage V)) :=
  t.filterMap fun
    | .fromGemini m => some m
    | _ => none

def toGemini? (text : V → String) : Event V → Option (ClientMessage V)
  | .sendAudio f none => some (sendAudio f)
  | .sendToolResults results none => some (sendToolResults text results)
  | _ => none

/-- The messages that are written to Gemini, by calls without an error. -/
def toGemini (text : V → String) (t : List (Seen V)) : List (ClientMessage V) := (events t).filterMap (toGemini? text)

/-- The call of `Send` for audio of Gemini. -/
def voice? (streamSid : String) : Event V → Option Twilio.OutMessage
  | .send f none => some (Twilio.send streamSid f)
  | _ => none

/-- The media messages with the voice of Gemini that are written to Twilio, by calls without an error. -/
def voice (streamSid : String) (t : List (Seen V)) : List Twilio.OutMessage := (events t).filterMap (voice? streamSid)

def toolSend? : Event V → Option (List (ToolResult V) × Option (Err V))
  | .sendToolResults results err => some (results, err)
  | _ => none

/-- The calls of `SendToolResults`, with what they have returned. -/
def toolSends (t : List (Seen V)) : List (List (ToolResult V) × Option (Err V)) := (events t).filterMap toolSend?

/-! ## What messages carry -/

/-- The audio of a message to Gemini, decoded. -/
def ClientMessage.audio : ClientMessage V → Option (List UInt8)
  | .realtimeInput data _ => Base64.decode data.toList
  | .toolResponse _ => none

def ClientMessage.toolResponse? : ClientMessage V → Option (List (FunctionResponse V))
  | .realtimeInput _ _ => none
  | .toolResponse responses => some responses

def partAudio (p : Gemini.Part) : List (List UInt8) :=
  match p.inlineData with
  | some (.bytes data) => [data]
  | _ => []

/-- The audio of a message of Gemini. -/
def modelAudio (m : Option (Gemini.ServerMessage V)) : List (List UInt8) :=
  (m.bind (·.serverContent)).elim [] fun c => c.modelTurn.flatMap partAudio

/-- The batch of function calls of a message of Gemini. -/
def functionCalls (m : Option (Gemini.ServerMessage V)) : List (List (ToolCall V)) :=
  m.elim [] fun msg => if msg.toolCall = [] then [] else [msg.toolCall]

end Gopkg.Voice.Wire
