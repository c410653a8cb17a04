import Mathlib.Data.List.Infix
import Gopkg.Voice.PhoneCall
import Gopkg.Voice.Whatsapp.Transport

/-!
# Inbound audio of the WhatsApp transport

`Receive` of `voice/transport/whatsapp/transport.go` with the tracks of `peer.go`. A track is the list of the payloads
that have arrived on it. The Opus decoder is a machine of its own, which may fail on a payload.
-/

namespace Gopkg.Voice.Whatsapp

open Audio

variable {δ τ V : Type}

/-- `inSampleRate * 60 / 1000` -/
def maxDecodeSamples : Nat := 960

/-- `opus.Decoder`. `Decode` writes into a buffer of `maxDecodeSamples` samples. -/
structure Decoder (δ : Type) where
  decode : δ → List UInt8 → δ × Option (List Int16)
  bounded : ∀ d payload, ∀ pcm ∈ (decode d payload).2, pcm.length ≤ maxDecodeSamples

def int16LEToBytes (s : List Int16) : List UInt8 := s.flatMap putUint16

/-- `strings.Contains` -/
def contains (text part : String) : Bool := text.toList.tails.any fun rest => part.toList.isPrefixOf rest

def isCloseErr (msg : String) : Bool := contains msg "closed" || contains msg "EOF" || contains msg "use of closed"

/-- What is put into the channel of errors for the error of `ReadRTP`, where `clean` is `io.EOF`. -/
def reported (text : Err V → String) : Ending V → Option (Err V)
  | .clean => none
  | .failed e => if isCloseErr (text e) then none else some e

inductive ReceiverPc (V : Type) where
  | idle
  -- The `select` for the remote track.
  | waiting
  -- `tr.ReadRTP()`.
  | reading (tr : Nat)
  -- The `select` that hands the frame over.
  | emitting (tr : Nat) (f : Frame)
  -- `errs <- err`.
  | putting (err : Option (Err V))
  | closingErrs
  | closingFrames
  | exited
  deriving DecidableEq, Repr

structure Receiver (δ V : Type) where
  pc : ReceiverPc V
  dec : δ
  -- The tracks in the order of the calls of `OnTrack`.
  tracks : List (List (List UInt8))
  -- The channel of capacity one between `OnTrack` and `Receive`.
  remoteTrack : Option Nat
  -- The number of packets that were read.
  read : Nat
  -- What `ReadRTP` returns after the packets.
  ending : Option (Ending V)
  -- `Close` was called.
  closed : Bool
  errs : Option (Option (Err V))
  deriving DecidableEq, Repr

def Receiver.fresh (d : δ) : Receiver δ V where
  pc := .idle
  dec := d
  tracks := []
  remoteTrack := none
  read := 0
  ending := none
  closed := false
  errs := none

/-- The next packet of the track. -/
def Receiver.next (r : Receiver δ V) (tr : Nat) : Option (List UInt8) := (r.tracks.getD tr [])[r.read]?

/-- The goroutine of `Receive`. The channel `remoteTrack` is never closed. -/
inductive ReceiverTick (D : Decoder δ) (text : Err V → String) (done : Bool) :
    Receiver δ V → Option (Ending V) → Receiver δ V → Prop
  | W_Track {r : Receiver δ V} {tr : Nat} : r.pc = .waiting → r.remoteTrack = some tr →
      ReceiverTick D text done r none { r with pc := .reading tr, remoteTrack := none }
  | W_GiveUp {r : Receiver δ V} : r.pc = .waiting → r.closed = true ∨ done = true →
      ReceiverTick D text done r none { r with pc := .closingErrs }
  | W_Frame {r : Receiver δ V} {tr : Nat} {payload : List UInt8} {d : δ} {pcm : List Int16} (now : Int) :
      r.pc = .reading tr → r.next tr = some payload → D.decode r.dec payload = (d, some pcm) →
      ReceiverTick D text done r none
        { r with pc := .emitting tr ⟨int16LEToBytes pcm, now⟩, dec := d, read := r.read + 1 }
  -- the packet cannot be decoded
  | W_Skip {r : Receiver δ V} {tr : Nat} {payload : List UInt8} {d : δ} : r.pc = .reading tr →
      r.next tr = some payload → D.decode r.dec payload = (d, none) →
      ReceiverTick D text done r none { r with dec := d, read := r.read + 1 }
  | W_End {r : Receiver δ V} {tr : Nat} {e : Ending V} : r.pc = .reading tr → r.next tr = none → r.ending = some e →
      ReceiverTick D text done r (some ((reported text e).elim .clean .failed))
        { r with pc := .putting (reported text e) }
  -- `PC.Close()` makes the read fail, whatever is left to be read
  | W_Closed {r : Receiver δ V} {tr : Nat} {e : Ending V} : r.pc = .reading tr → r.closed = true →
      ReceiverTick D text done r (some ((reported text e).elim .clean .failed))
        { r with pc := .putting (reported text e) }
  | W_Drop {r : Receiver δ V} {tr : Nat} {f : Frame} : r.pc = .emitting tr f → r.closed = true ∨ done = true →
      ReceiverTick D text done r none { r with pc := .closingErrs }
  | W_Put {r : Receiver δ V} {err : Option (Err V)} : r.pc = .putting err → r.errs = none →
      ReceiverTick D text done r none { r with pc := .closingErrs, errs := some err }
  | W_CloseErrs {r : Receiver δ V} : r.pc = .closingErrs →
      ReceiverTick D text done r none { r with pc := .closingFrames }
  | W_CloseFrames {r : Receiver δ V} : r.pc = .closingFrames →
      ReceiverTick D text done r none { r with pc := .exited }

inductive ReceiverRecv : Receiver δ V → Recv Frame V → Receiver δ V → Prop
  | C_Item {r : Receiver δ V} {tr : Nat} {f : Frame} : r.pc = .emitting tr f →
      ReceiverRecv r (.item f) { r with pc := .reading tr }
  | C_Closed {r : Receiver δ V} : r.pc = .exited → ReceiverRecv r .closed r
  | C_Error {r : Receiver δ V} {e : Err V} : r.errs = some (some e) → ReceiverRecv r (.error e) { r with errs := none }
  | C_ErrorNil {r : Receiver δ V} : r.errs = some none → ReceiverRecv r .errorNil { r with errs := none }
  | C_ErrorClosed {r : Receiver δ V} : r.errs = none → r.pc = .closingFrames ∨ r.pc = .exited →
      ReceiverRecv r .errorClosed r

/-- The caller's side of the connection. -/
inductive ReceiverPeer : Receiver δ V → Receiver δ V → Prop
  -- `OnTrack`: the track is dropped when another one waits in the channel
  | P_Track {r : Receiver δ V} : r.closed = false →
      ReceiverPeer r { r with tracks := r.tracks ++ [[]], remoteTrack := r.remoteTrack.or (some r.tracks.length) }
  | P_Packet {r : Receiver δ V} (tr : Nat) (payload : List UInt8) : r.closed = false →
      ReceiverPeer r { r with tracks := r.tracks.modify tr (· ++ [payload]) }
  | P_End {r : Receiver δ V} (e : Ending V) : r.closed = false → ReceiverPeer r { r with ending := some e }

def transport (D : Decoder δ) (text : Err V → String) : Voice.Transport (Receiver δ V) V where
  start r := { r with pc := .waiting }
  tick := ReceiverTick D text
  peer := ReceiverPeer
  recv _ := ReceiverRecv
  close r := { r with closed := true }
  inboundFormat := { encoding := .pcm16le, sampleRate := 16000, channels := 1 }
  outboundFormat := { encoding := .pcm16le, sampleRate := 24000, channels := 1 }

/-- The session that bridges a WhatsApp call and an LLM. -/
def call (D : Decoder δ) (text : Err V → String) (llm : LLM τ V) (C : CallSetup) : Config (Receiver δ V) τ V where
  transport := transport D text
  llm := llm
  filler := C.filler
  toolConcurrency := C.toolConcurrency
  positive := C.positive
  setup := C.setup

/-! ## What the packets carry -/

/-- The audio of one packet after another, without the packets that cannot be decoded, and the decoder after them. -/
def decodeAll (D : Decoder δ) (d : δ) (payloads : List (List UInt8)) : δ × List (List UInt8) :=
  payloads.foldl
    (fun st payload => ((D.decode st.1 payload).1, st.2 ++ (D.decode st.1 payload).2.toList.map int16LEToBytes)) (d, [])

/-- The packets of the track that came first. -/
def Receiver.caller (r : Receiver δ V) : List (List UInt8) := r.tracks.getD 0 []

end Gopkg.Voice.Whatsapp
