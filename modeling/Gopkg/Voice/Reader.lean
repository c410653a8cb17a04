import Gopkg.Voice.Endpoint

/-!
# The read loop of a websocket adapter

`Transport.Receive` of `voice/transport/twilio` and `LLM.Events` of `voice/llm/gemini` have the same shape: a
goroutine reads messages from a connection, turns each into items and hands these over a channel. On its way
out it puts a read error on a channel of capacity one, closes that channel and then closes the channel of
items.
-/

namespace Gopkg.Voice

/-- A base64 text, by what it decodes to. -/
inductive Payload where
  | empty
  | malformed
  | bytes (data : List UInt8)
  deriving DecidableEq, Repr

/-- A websocket connection, seen from the reader. -/
inductive Conn (V : Type) where
  | live
  -- The remote peer has closed it, or it has failed.
  | ended (e : Ending V)
  -- Our own side has closed it.
  | closed
  deriving DecidableEq, Repr

/-- What a message makes the reader do: hand over items, or stop. -/
inductive Reaction (β : Type) where
  | items (bs : List β)
  | stop
  deriving DecidableEq, Repr

def Reaction.toList {β : Type} : Reaction β → List β
  | .items bs => bs
  | .stop => []

/-- The part of an adapter that its read loop depends on: `μ` are the messages, `ℓ` the variables of the
goroutine, and an item `α` is made from a `β` when it is about to be handed over. -/
structure ReadLoop (μ β α ℓ : Type) where
  handle : ℓ → μ → ℓ × Reaction β
  prepare : β → α → Prop

inductive ReaderPc (β α V : Type) where
  | idle
  -- The check of the context before a read.
  | top
  -- `conn.ReadMessage()`.
  | reading
  | preparing (b : β) (bs : List β)
  -- The `select` between the handing over of `a` and the context.
  | emitting (a : α) (bs : List β)
  -- `errs <- err`.
  | failing (e : Err V)
  | closingErrs
  | closingItems
  | exited
  deriving DecidableEq, Repr

structure Reader (μ β α ℓ V : Type) where
  pc : ReaderPc β α V
  vars : ℓ
  -- The messages that have arrived and are not read.
  inbox : List μ
  conn : Conn V
  -- The channel of errors.
  errs : Option (Err V)
  deriving DecidableEq, Repr

variable {μ β α ℓ V : Type}

/-- The place after an item: the next item of the message, or the next message. -/
def ReaderPc.next : List β → ReaderPc β α V
  | [] => .top
  | b :: bs => .preparing b bs

inductive ReaderTick (L : ReadLoop μ β α ℓ) (done : Bool) :
    Reader μ β α ℓ V → Option (Ending V) → Reader μ β α ℓ V → Prop
  | R_Return {r : Reader μ β α ℓ V} : r.pc = .top → done = true → ReaderTick L done r none { r with pc := .closingErrs }
  | R_Read {r : Reader μ β α ℓ V} : r.pc = .top → done = false → ReaderTick L done r none { r with pc := .reading }
  | R_Items {r : Reader μ β α ℓ V} {m : μ} {ms : List μ} {v : ℓ} {bs : List β} : r.pc = .reading →
      r.conn ≠ .closed → r.inbox = m :: ms → L.handle r.vars m = (v, .items bs) →
      ReaderTick L done r none { r with pc := .next bs, vars := v, inbox := ms }
  | R_Stop {r : Reader μ β α ℓ V} {m : μ} {ms : List μ} {v : ℓ} : r.pc = .reading → r.conn ≠ .closed →
      r.inbox = m :: ms → L.handle r.vars m = (v, .stop) →
      ReaderTick L done r (some .clean) { r with pc := .closingErrs, vars := v, inbox := ms }
  | R_Clean {r : Reader μ β α ℓ V} : r.pc = .reading → r.inbox = [] → r.conn = .ended .clean →
      ReaderTick L done r (some .clean) { r with pc := .closingErrs }
  | R_Failed {r : Reader μ β α ℓ V} {e : Err V} : r.pc = .reading → r.inbox = [] → r.conn = .ended (.failed e) →
      ReaderTick L done r (some (.failed e)) { r with pc := .failing e }
  | R_Closed {r : Reader μ β α ℓ V} {e : Err V} : r.pc = .reading → r.conn = .closed →
      ReaderTick L done r (some (.failed e)) { r with pc := .failing e }
  | R_Put {r : Reader μ β α ℓ V} {e : Err V} : r.pc = .failing e → r.errs = none →
      ReaderTick L done r none { r with pc := .closingErrs, errs := some e }
  | R_Prepare {r : Reader μ β α ℓ V} {b : β} {bs : List β} {a : α} : r.pc = .preparing b bs → L.prepare b a →
      ReaderTick L done r none { r with pc := .emitting a bs }
  | R_PrepareDone {r : Reader μ β α ℓ V} {b : β} {bs : List β} : r.pc = .preparing b bs → done = true →
      ReaderTick L done r none { r with pc := .closingErrs }
  | R_EmitDone {r : Reader μ β α ℓ V} {a : α} {bs : List β} : r.pc = .emitting a bs → done = true →
      ReaderTick L done r none { r with pc := .closingErrs }
  | R_CloseErrs {r : Reader μ β α ℓ V} : r.pc = .closingErrs → ReaderTick L done r none { r with pc := .closingItems }
  | R_CloseItems {r : Reader μ β α ℓ V} : r.pc = .closingItems → ReaderTick L done r none { r with pc := .exited }

/-- The cases of the receiver's `select`. What is in the channel of errors comes before its end. -/
inductive ReaderRecv : Reader μ β α ℓ V → Recv α V → Reader μ β α ℓ V → Prop
  | C_Item {r : Reader μ β α ℓ V} {a : α} {bs : List β} : r.pc = .emitting a bs →
      ReaderRecv r (.item a) { r with pc := .next bs }
  | C_Closed {r : Reader μ β α ℓ V} : r.pc = .exited → ReaderRecv r .closed r
  | C_Error {r : Reader μ β α ℓ V} {e : Err V} : r.errs = some e → ReaderRecv r (.error e) { r with errs := none }
  | C_ErrorClosed {r : Reader μ β α ℓ V} : r.errs = none → r.pc = .closingItems ∨ r.pc = .exited →
      ReaderRecv r .errorClosed r

/-- The remote peer sends a message, closes the connection or loses it. -/
inductive ReaderPeer : Reader μ β α ℓ V → Reader μ β α ℓ V → Prop
  | P_Send {r : Reader μ β α ℓ V} (m : μ) : r.conn = .live → ReaderPeer r { r with inbox := r.inbox ++ [m] }
  | P_End {r : Reader μ β α ℓ V} (e : Ending V) : r.conn = .live → ReaderPeer r { r with conn := .ended e }

def Reader.start (r : Reader μ β α ℓ V) : Reader μ β α ℓ V := { r with pc := .top }

def Reader.close (r : Reader μ β α ℓ V) : Reader μ β α ℓ V := { r with conn := .closed }

def Reader.fresh (v : ℓ) : Reader μ β α ℓ V where
  pc := .idle
  vars := v
  inbox := []
  conn := .live
  errs := none

end Gopkg.Voice
