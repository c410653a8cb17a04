import Gopkg.Voice.Types

/-!
# Hold filler

`voice/pipeline/holdfiller.go`, and the watchdog and pump goroutine of `dispatchToolCalls` and
`pumpHoldFiller`.
-/

namespace Gopkg.Voice

variable {V : Type}

/-- The `i`-th frame on the filler's channel; `none` when the channel is closed by then. -/
structure Filler where
  frame : Nat → Option Frame

def silentFiller : Filler where
  frame _ := none

/-- The looping filler of `voice/holdfiller/twilio`. -/
def loopingFiller (chunks : List Frame) : Filler where
  frame i := chunks[i % chunks.length]?

inductive HoldPc where
  -- The watchdog goroutine does not run yet.
  | idle
  -- The `select` between `done` and the timer.
  | waiting
  -- The `select` of the pump, before the `i`-th frame.
  | pumping (i : Nat)
  -- The call of `Transport.Send` with the frame that was received.
  | sending (i : Nat) (f : Frame)
  | exited
  deriving DecidableEq, Repr

/-- The steps of the watchdog and of its pump. `done` says whether the batch's `done` channel is closed, and
`holdDone` whether `holdCtx` is done. The timer may fire at any moment. -/
inductive HoldStep (filler : Filler) (done holdDone : Bool) : HoldPc → List (Event V) → HoldPc → Prop
  | H_Done : done = true → HoldStep filler done holdDone .waiting [] .exited
  | H_Timer : HoldStep filler done holdDone .waiting [] (.pumping 0)
  | H_Cancelled {i : Nat} : holdDone = true → HoldStep filler done holdDone (.pumping i) [] .exited
  | H_Frame {i : Nat} {f : Frame} : filler.frame i = some f →
      HoldStep filler done holdDone (.pumping i) [] (.sending i f)
  | H_Closed {i : Nat} : filler.frame i = none ∨ holdDone = true →
      HoldStep filler done holdDone (.pumping i) [] .exited
  | H_Sent {i : Nat} {f : Frame} :
      HoldStep filler done holdDone (.sending i f) [.sendFiller f none] (.pumping (i + 1))
  | H_SendFailed {i : Nat} {f : Frame} {e : Err V} :
      HoldStep filler done holdDone (.sending i f) [.sendFiller f (some e)] .exited

end Gopkg.Voice
