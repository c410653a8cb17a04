import Gopkg.Lts.Run
import Gopkg.Voice.HoldFiller

/-!
# Tool batches

`dispatchToolCalls` of `voice/pipeline/pipeline.go`: the calling goroutine, one worker goroutine for each
call, and the watchdog of the hold filler.
-/

namespace Gopkg.Voice

variable {V : Type}

/-- Where the calling goroutine is. -/
inductive BatchPc (V : Type) where
  -- `OnToolCall` for the calls from the `k`-th on.
  | announce (k : Nat)
  -- `wg.Add(1)` for the `k`-th call.
  | add (k : Nat)
  -- `sem <- struct{}{}` for the `k`-th call.
  | acquire (k : Nat)
  | wait
  | closeDone
  | cancelHold
  | clear
  -- `OnToolResponse` for the calls from the `k`-th on.
  | respond (k : Nat)
  | send
  | report (e : Err V)
  | finished
  deriving DecidableEq, Repr

/-- Where a worker is. The deferred functions store the result of a panic, free the semaphore and call
`wg.Done`, in this order. -/
inductive WorkerPc (V : Type) where
  | ready
  | executing
  | storing (o : Outcome V)
  | releasing
  | finishing
  | gone
  deriving DecidableEq, Repr

structure Batch (V : Type) where
  calls : List (ToolCall V)
  pc : BatchPc V
  workers : List (WorkerPc V)
  results : List (ToolResult V)
  -- The tokens in the channel `sem`.
  sem : Nat
  wg : Nat
  done : Bool
  holdCancelled : Bool
  hold : HoldPc
  deriving DecidableEq, Repr

/-- The zero value of `ToolResult`. -/
def zeroResult : ToolResult V := { callID := "", data := none, err := none }

def Batch.init (calls : List (ToolCall V)) : Batch V where
  calls := calls
  pc := .announce 0
  workers := []
  results := List.replicate calls.length zeroResult
  sem := 0
  wg := 0
  done := false
  holdCancelled := false
  hold := .idle

def Batch.setWorker (b : Batch V) (i : Nat) (w : WorkerPc V) : Batch V := { b with workers := b.workers.set i w }

/-- The steps of the calling goroutine and of the workers. -/
inductive CoreStep (toolConcurrency : Nat) : Batch V → List (Event V) → Batch V → Prop
  | B_Announce {b : Batch V} {k : Nat} {c : ToolCall V} {p : Bool} : b.pc = .announce k → b.calls[k]? = some c →
      CoreStep toolConcurrency b [.callback (.onToolCall c) p] { b with pc := .announce (k + 1) }
  | B_Watch {b : Batch V} : b.pc = .announce b.calls.length →
      CoreStep toolConcurrency b [] { b with pc := .add 0, hold := .waiting }
  | B_Add {b : Batch V} {k : Nat} : b.pc = .add k → k < b.calls.length →
      CoreStep toolConcurrency b [] { b with pc := .acquire k, wg := b.wg + 1 }
  | B_Acquire {b : Batch V} {k : Nat} : b.pc = .acquire k → b.sem < toolConcurrency →
      CoreStep toolConcurrency b []
        { b with pc := .add (k + 1), sem := b.sem + 1, workers := b.workers ++ [.ready] }
  | B_Spawned {b : Batch V} : b.pc = .add b.calls.length → CoreStep toolConcurrency b [] { b with pc := .wait }
  | B_Wait {b : Batch V} : b.pc = .wait → b.wg = 0 → CoreStep toolConcurrency b [] { b with pc := .closeDone }
  | B_CloseDone {b : Batch V} : b.pc = .closeDone →
      CoreStep toolConcurrency b [] { b with pc := .cancelHold, done := true }
  | B_CancelHold {b : Batch V} : b.pc = .cancelHold →
      CoreStep toolConcurrency b [] { b with pc := .clear, holdCancelled := true }
  | B_Clear {b : Batch V} : b.pc = .clear → CoreStep toolConcurrency b [.clear] { b with pc := .respond 0 }
  | B_Respond {b : Batch V} {k : Nat} {c : ToolCall V} {r : ToolResult V} {p : Bool} : b.pc = .respond k →
      b.calls[k]? = some c → b.results[k]? = some r →
      CoreStep toolConcurrency b [.callback (.onToolResponse c r.data r.err) p] { b with pc := .respond (k + 1) }
  | B_Responded {b : Batch V} : b.pc = .respond b.calls.length →
      CoreStep toolConcurrency b [] { b with pc := .send }
  | B_Send {b : Batch V} : b.pc = .send →
      CoreStep toolConcurrency b [.sendToolResults b.results none] { b with pc := .finished }
  | B_SendFailed {b : Batch V} {e : Err V} : b.pc = .send →
      CoreStep toolConcurrency b [.sendToolResults b.results (some e)] { b with pc := .report e }
  | B_Report {b : Batch V} {e : Err V} {p : Bool} : b.pc = .report e →
      CoreStep toolConcurrency b [.callback (.onError e) p] { b with pc := .finished }
  | B_Begin {b : Batch V} {i : Nat} : b.workers[i]? = some .ready →
      CoreStep toolConcurrency b [.executeBegin i] (b.setWorker i .executing)
  | B_End {b : Batch V} {i : Nat} (o : Outcome V) : b.workers[i]? = some .executing →
      CoreStep toolConcurrency b [.executeEnd i o] (b.setWorker i (.storing o))
  | B_Store {b : Batch V} {i : Nat} {o : Outcome V} {c : ToolCall V} : b.workers[i]? = some (.storing o) →
      b.calls[i]? = some c →
      CoreStep toolConcurrency b [] { b.setWorker i .releasing with results := b.results.set i (toolResult c o) }
  | B_Release {b : Batch V} {i : Nat} : b.workers[i]? = some .releasing → 0 < b.sem →
      CoreStep toolConcurrency b [] { b.setWorker i .finishing with sem := b.sem - 1 }
  | B_Done {b : Batch V} {i : Nat} : b.workers[i]? = some .finishing →
      CoreStep toolConcurrency b [] { b.setWorker i .gone with wg := b.wg - 1 }

/-- A step of the batch. The context of the run may be done at any moment. -/
inductive BatchStep (toolConcurrency : Nat) (filler : Filler) : Batch V → List (Event V) → Batch V → Prop
  | core {b b' : Batch V} {evs : List (Event V)} : CoreStep toolConcurrency b evs b' →
      BatchStep toolConcurrency filler b evs b'
  | hold {b : Batch V} {evs : List (Event V)} {h : HoldPc} (runDone : Bool) :
      HoldStep filler b.done (b.holdCancelled || runDone) b.hold evs h →
      BatchStep toolConcurrency filler b evs { b with hold := h }

end Gopkg.Voice
