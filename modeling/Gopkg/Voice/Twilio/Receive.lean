import Gopkg.Base64.Standard
import Gopkg.Lts.Run
import Gopkg.Pacing.Deadlines
import Gopkg.Voice.Twilio

/-!
# Media of the Twilio transport

`Receive` of `voice/transport/twilio/transport.go` with its clock, and the messages that `Send`, `Clear` and `Mark`
write. Times are in nanoseconds. The JSON of a message is read and written by the library.
-/

namespace Gopkg.Voice.Twilio

open Lts Pacing

/-! ## Messages -/

/-- What a `payload` field is decoded to. -/
def payload (text : String) : Payload :=
  if text = "" then .empty
  else
    match Base64.decode text.toList with
    | none => .malformed
    | some data => .bytes data

/-- `base64.StdEncoding.EncodeToString` -/
def encodeToString (data : List UInt8) : String := String.ofList (Base64.encode data)

def eventName (name : String) : EventName :=
  if name = "media" then .media else if name = "stop" then .stop else .other name

/-- `TwilioOutMessage`, with the payload of its media and the name of its mark. -/
structure OutMessage where
  event : String
  streamSid : String
  media : Option String
  mark : Option String
  deriving DecidableEq, Repr

def send (streamSid : String) (f : Frame) : OutMessage :=
  { event := "media", streamSid := streamSid, media := some (encodeToString f.data), mark := none }

def clear (streamSid : String) : OutMessage := { event := "clear", streamSid := streamSid, media := none, mark := none }

def mark (streamSid name : String) : OutMessage :=
  { event := "mark", streamSid := streamSid, media := none, mark := some name }

/-- The message as `Receive` reads it: both kinds of messages have the fields `event` and `media.payload`. -/
def OutMessage.read (m : OutMessage) : Message :=
  { event := eventName m.event, media := m.media.map payload }

/-! ## `Receive` -/

/-- `20 * time.Millisecond` -/
def frameInterval : Int := 20000000

structure Receiving (V : Type) where
  reader : State V
  -- The context is done.
  done : Bool
  now : Int
  -- The zero time until the first frame.
  nextFrameAt : Option Int
  deriving DecidableEq, Repr

inductive Seen where
  | arrived (m : Option Message)
  | handed (f : Frame)
  deriving DecidableEq, Repr

variable {V : Type}

/-- `Receive` is called. -/
def Receiving.start (now : Int) : Receiving V :=
  { reader := (Reader.fresh ()).start, done := false, now := now, nextFrameAt := none }

inductive ReceiveStep : Receiving V → List Seen → Receiving V → Prop
  | V_Time {s : Receiving V} {d : Int} : 0 ≤ d → ReceiveStep s [] { s with now := s.now + d }
  | V_Cancel {s : Receiving V} : ReceiveStep s [] { s with done := true }
  | V_Arrive {s : Receiving V} (m : Option Message) : s.reader.conn = .live →
      ReceiveStep s [.arrived m] { s with reader := { s.reader with inbox := s.reader.inbox ++ [m] } }
  | V_End {s : Receiving V} (e : Ending V) : s.reader.conn = .live →
      ReceiveStep s [] { s with reader := { s.reader with conn := .ended e } }
  | V_Close {s : Receiving V} : ReceiveStep s [] { s with reader := s.reader.close }
  -- the last reading of the clock, after the timer if the frame is early
  | V_Stamp {s : Receiving V} {data : List UInt8} {rest : List (List UInt8)} :
      s.reader.pc = .preparing data rest → (∀ at' ∈ s.nextFrameAt, at' ≤ s.now) →
      ReceiveStep s []
        { s with
          reader := { s.reader with pc := .emitting ⟨data, s.now⟩ rest }
          nextFrameAt := some (s.now + frameInterval) }
  | V_Tick {s : Receiving V} {x : Option (Ending V)} {r : State V} : ReaderTick readLoop s.done s.reader x r →
      (∀ f rest, r.pc ≠ .emitting f rest) → ReceiveStep s [] { s with reader := r }
  | V_Hand {s : Receiving V} {f : Frame} {r : State V} : ReaderRecv s.reader (.item f) r →
      ReceiveStep s [.handed f] { s with reader := r }
  | V_Recv {s : Receiving V} {x : Recv Frame V} {r : State V} : ReaderRecv s.reader x r → (∀ f, x ≠ .item f) →
      ReceiveStep s [] { s with reader := r }

def arrived (t : List Seen) : List (Option Message) :=
  t.filterMap fun
    | .arrived m => some m
    | .handed _ => none

def handed (t : List Seen) : List Frame :=
  t.filterMap fun
    | .arrived _ => none
    | .handed f => some f

/-- The audio that a message carries. -/
def audio (m : Option Message) : List (List UInt8) := (handle m).toList

end Gopkg.Voice.Twilio
