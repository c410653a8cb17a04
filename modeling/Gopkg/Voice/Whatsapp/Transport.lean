import Gopkg.Lts.Run
import Gopkg.Audio.Codec

/-!
# Outbound audio of the WhatsApp transport

`voice/transport/whatsapp/transport.go`. A `Send` holds `writeMu` from its first step to its last; `Clear` takes no
lock, and the pacer is a goroutine of its own. The encoder is a function of one block of samples.
-/

namespace Gopkg.Voice.Whatsapp

open Lts Audio

def outFrameSamples : Nat := 480

def queueCapacity : Nat := 1000

/-- A sample, with the number of samples that were accepted before it. -/
structure Sample where
  value : Int16
  position : Nat
  deriving DecidableEq, Repr

/-- An encoded frame, with the samples it was made of. -/
structure OpusFrame where
  samples : List Sample
  data : List UInt8
  deriving DecidableEq, Repr

inductive Sender where
  | idle
  /-- The loop over the full blocks of `sendBuf`. -/
  | encoding
  deriving DecidableEq, Repr

structure Transport where
  sendBuf : List Sample
  outQueue : List OpusFrame
  closed : Bool
  sender : Sender
  -- `paceSender` has not returned.
  pacing : Bool
  -- The calls of `Clear` that have not returned.
  clearing : Nat
  -- The number of samples that were accepted.
  accepted : Nat
  deriving DecidableEq, Repr

def Transport.new : Transport :=
  { sendBuf := [], outQueue := [], closed := false, sender := .idle, pacing := true, clearing := 0, accepted := 0 }

/-- The whole samples of a frame, little-endian; the last byte of an odd number of them is dropped. -/
def bytesToInt16LE (b : List UInt8) : List Int16 := samplesLE b

def number (start : Nat) (values : List Int16) : List Sample :=
  values.mapIdx fun i v => { value := v, position := start + i }

def values (samples : List Sample) : List Int16 := samples.map Sample.value

/-- The `select` that drops a frame when the queue is full. -/
def enqueue (queue : List OpusFrame) (f : OpusFrame) : List OpusFrame :=
  if queue.length < queueCapacity then queue ++ [f] else queue

inductive Event where
  /-- A `Send` has accepted the samples of its frame. -/
  | accepted (data : List UInt8)
  /-- A block was handed to the encoder. -/
  | encoded (block : List Sample)
  | sendReturned (err : Option String)
  /-- What the pacer has written: a frame of the queue, or silence. -/
  | paced (frame : Option OpusFrame)
  | dropped (frame : OpusFrame)
  | clearReturned
  | closed
  deriving DecidableEq, Repr

inductive Step (encode : List Int16 → Except String (List UInt8)) : Transport → List Event → Transport → Prop
  | T_SendClosed {s : Transport} : s.sender = .idle → s.closed = true → Step encode s [.sendReturned none] s
  | T_Send {s : Transport} (data : List UInt8) : s.sender = .idle → s.closed = false →
      Step encode s [.accepted data]
        { s with
          sendBuf := s.sendBuf ++ number s.accepted (bytesToInt16LE data)
          accepted := s.accepted + (bytesToInt16LE data).length
          sender := .encoding }
  | T_Encode {s : Transport} {data : List UInt8} : s.sender = .encoding → outFrameSamples ≤ s.sendBuf.length →
      encode (values (s.sendBuf.take outFrameSamples)) = .ok data →
      Step encode s [.encoded (s.sendBuf.take outFrameSamples)]
        { s with
          sendBuf := s.sendBuf.drop outFrameSamples
          outQueue := enqueue s.outQueue { samples := s.sendBuf.take outFrameSamples, data := data } }
  | T_EncodeFailed {s : Transport} {err : String} : s.sender = .encoding → outFrameSamples ≤ s.sendBuf.length →
      encode (values (s.sendBuf.take outFrameSamples)) = .error err →
      Step encode s [.encoded (s.sendBuf.take outFrameSamples), .sendReturned (some err)]
        { s with sendBuf := s.sendBuf.drop outFrameSamples, sender := .idle }
  | T_Sent {s : Transport} : s.sender = .encoding → s.sendBuf.length < outFrameSamples →
      Step encode s [.sendReturned none] { s with sender := .idle }
  | T_Pace {s : Transport} {f : OpusFrame} {queue : List OpusFrame} : s.pacing = true → s.outQueue = f :: queue →
      Step encode s [.paced (some f)] { s with outQueue := queue }
  | T_Silence {s : Transport} : s.pacing = true → s.outQueue = [] → Step encode s [.paced none] s
  | T_PacerExits {s : Transport} : s.closed = true → Step encode s [] { s with pacing := false }
  | T_Clear {s : Transport} : Step encode s [] { s with clearing := s.clearing + 1 }
  | T_Drop {s : Transport} {f : OpusFrame} {queue : List OpusFrame} : 0 < s.clearing → s.outQueue = f :: queue →
      Step encode s [.dropped f] { s with outQueue := queue }
  | T_ClearReturns {s : Transport} : 0 < s.clearing → s.outQueue = [] →
      Step encode s [.clearReturned] { s with clearing := s.clearing - 1 }
  | T_Close {s : Transport} : s.sender = .idle → Step encode s [.closed] { s with closed := true }

/-- The bytes of the frames that were accepted, one frame after the other. -/
def acceptedBytes (t : List Event) : List UInt8 :=
  t.flatMap fun
    | .accepted data => data
    | _ => []

/-- The blocks that were handed to the encoder. -/
def encodedBlocks (t : List Event) : List (List Sample) :=
  t.filterMap fun
    | .encoded block => some block
    | _ => none

end Gopkg.Voice.Whatsapp
