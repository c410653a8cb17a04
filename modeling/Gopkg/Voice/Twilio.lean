import Gopkg.Voice.Reader

/-!
# Twilio Media Streams

`voice/transport/twilio/transport.go`.
-/

namespace Gopkg.Voice.Twilio

inductive EventName where
  | media
  | stop
  | other (name : String)
  deriving DecidableEq, Repr

/-- The fields of `TwilioMessage` that `Receive` reads. -/
structure Message where
  event : EventName
  media : Option Payload
  deriving DecidableEq, Repr

/-- One message of the connection; `none` is malformed JSON, which is skipped. -/
def handle : Option Message → Reaction (List UInt8)
  | none => .items []
  | some msg =>
      match msg.event with
      | .media =>
          match msg.media with
          | some (.bytes data) => .items [data]
          | some .malformed | some .empty | none => .items []
      | .stop => .stop
      | .other _ => .items []

/-- The frames are paced 20 ms apart and stamped with the time at which they are handed over. -/
def readLoop : ReadLoop (Option Message) (List UInt8) Frame Unit where
  handle _ m := ((), handle m)
  prepare data f := f.data = data

abbrev State (V : Type) := Reader (Option Message) (List UInt8) Frame Unit V

def format : AudioFormat := { encoding := .mulaw, sampleRate := 8000, channels := 1 }

def transport (V : Type) : Transport (State V) V where
  start := Reader.start
  tick := ReaderTick readLoop
  peer := ReaderPeer
  recv _ := ReaderRecv
  close := Reader.close
  inboundFormat := format
  outboundFormat := format

end Gopkg.Voice.Twilio
