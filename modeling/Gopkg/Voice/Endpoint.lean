import Gopkg.Voice.Types

/-!
# The endpoints of a session

The interfaces `Transport` and `LLM` of `voice/pipeline`, seen from `Run`: an adapter is a transition
system with states `σ`. `Receive` and `Events` start a goroutine of the adapter and return a channel of items
and a channel of errors. The writing methods (`Send`, `SendAudio`, ...) succeed or fail freely and are
rules of the session.
-/

namespace Gopkg.Voice

/-- What a `select` over the two channels of an adapter can find: an item, the closed channel of items, an
error, a nil error, or the closed channel of errors. -/
inductive Recv (α V : Type) where
  | item (a : α)
  | closed
  | error (e : Err V)
  | errorNil
  | errorClosed
  deriving DecidableEq, Repr

/-- The reading side of an adapter. `done` says whether the context that `Receive` or `Events` got is
done. -/
structure Source (σ α V : Type) where
  start : σ → σ
  -- A step of the adapter's own goroutine. It shows how the stream ends when it finds that out.
  tick (done : Bool) : σ → Option (Ending V) → σ → Prop
  -- A step of the remote peer.
  peer : σ → σ → Prop
  -- A case of the receiver's `select` that is ready.
  recv (done : Bool) : σ → Recv α V → σ → Prop
  close : σ → σ

structure Transport (σ V : Type) extends Source σ Frame V where
  inboundFormat : AudioFormat
  outboundFormat : AudioFormat

structure LLM (τ V : Type) extends Source τ (LLMEvent V) V where
  inboundFormat : AudioFormat
  outboundFormat : AudioFormat
  -- A step of `Open`. It shows the result when `Open` returns.
  openStep (done : Bool) : τ → Option (Option (Err V)) → τ → Prop

end Gopkg.Voice
