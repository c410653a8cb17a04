import Gopkg.Voice.CodecBridge
import Gopkg.Voice.Endpoint
import Gopkg.Voice.Itoa
import Gopkg.Voice.ToolBatch

/-!
# One session

`Pipeline.Run` of `voice/pipeline/pipeline.go`, as the interleaving of its goroutines: the caller of `Run`, the
caller-audio goroutine, the LLM-events goroutine with the goroutines of its tool batches, the goroutines of
the two adapters, and the environment.
-/

namespace Gopkg.Voice

variable {σ τ V : Type}

/-- What `Run` is given. `New` makes `toolConcurrency` positive. -/
structure Config (σ τ V : Type) where
  transport : Transport σ V
  llm : LLM τ V
  filler : Filler
  toolConcurrency : Nat
  positive : 0 < toolConcurrency
  setup : SetupRequest

/-- The inbound and the outbound bridge, resolved in this order. -/
def Config.bridges (P : Config σ τ V) : Except (Err V) (Bridge × Bridge) := do
  let inboundBridge ← resolveBridge P.transport.inboundFormat P.llm.outboundFormat
  let outboundBridge ← resolveBridge P.llm.inboundFormat P.transport.outboundFormat
  return (inboundBridge, outboundBridge)

/-! ## State -/

/-- The caller of `Run`. -/
inductive MainPc (V : Type) where
  | resolving
  | opening
  -- `OnError`, and then `OnSessionEnd`, for an error before the streams start.
  | failing (e : Err V)
  | failed (e : Err V)
  | injected
  | receiving
  | subscribing
  | starting
  -- The `select` between `done` and `ctx.Done()`.
  | waiting
  -- The wait for `done` after the context was done.
  | draining
  | closingTransport (r : EndReason) (e : Option (Err V))
  | closingLLM (r : EndReason) (e : Option (Err V))
  | ending (r : EndReason) (e : Option (Err V))
  | returned (e : Option (Err V))
  deriving DecidableEq, Repr

/-- The way out of a goroutine: `recordEnd`, and for an error `OnError` and `cancel()`. -/
inductive Exit (V : Type) where
  | record (r : EndReason) (e : Option (Err V))
  | report (e : Err V)
  | cancel
  | gone
  deriving DecidableEq, Repr

inductive AudioPc (V : Type) where
  | idle
  | select
  | sending (f : Frame)
  | exiting (x : Exit V)
  deriving DecidableEq, Repr

/-- What the dispatch of an event does, apart from audio and tool calls. -/
inductive Action (V : Type) where
  | mark (name : String)
  | clear
  | observe (c : Callback V)
  deriving DecidableEq, Repr

inductive EventsPc (V : Type) where
  | idle
  | select
  | sending (f : Frame)
  | acting (as : List (Action V))
  | batch (b : Batch V)
  | exiting (x : Exit V)
  deriving DecidableEq, Repr

structure State (σ τ V : Type) where
  main : MainPc V
  audio : AudioPc V
  events : EventsPc V
  transport : σ
  llm : τ
  -- `ctx.Err()`.
  ctx : Option (Err V)
  -- `runCtx.Err()`.
  runCtx : Option (Err V)
  -- `endReason` and `runErr`, once `endOnce` has run.
  ended : Option (EndReason × Option (Err V))
  turn : Int
  -- The watchdogs of the batches that are over.
  holds : List HoldPc

def State.init (transport : σ) (llm : τ) : State σ τ V where
  main := .resolving
  audio := .idle
  events := .idle
  transport := transport
  llm := llm
  ctx := none
  runCtx := none
  ended := none
  turn := 0
  holds := []

namespace State

def done (s : State σ τ V) : Bool := s.runCtx.isSome

def cancel (s : State σ τ V) : State σ τ V := { s with runCtx := s.runCtx.or (some .canceled) }

/-- `recordEnd`: the first call counts, and the caller's context goes before its reason. -/
def recordEnd (s : State σ τ V) (r : EndReason) (e : Option (Err V)) : State σ τ V :=
  { s with ended := s.ended.or (some (if s.ctx.isSome then (.contextDone, s.ctx) else (r, e))) }

/-- The reason and the error of `Run`, read when both goroutines have exited. -/
def outcome (s : State σ τ V) : EndReason × Option (Err V) :=
  match s.ended.getD (.contextDone, none), s.runCtx with
  | (.contextDone, none), some .canceled => (.contextDone, some .canceled)
  | (r, e), _ => (r, e)

end State

/-! ## Dispatch -/

def audioAfter (b : Bridge) (f : Frame) : AudioPc V :=
  match b.convert f with
  | .ok conv => .sending conv
  | .error e => .exiting (.record .fatalError (some e))

/-- `dispatchLLMEvent`, up to the calls it makes. `turn` counts the event already. -/
def dispatch (b : Bridge) (turn : Int) : LLMEvent V → EventsPc V
  | .audioOut f =>
      match b.convert f with
      | .ok conv => .sending conv
      | .error e => .exiting (.record .fatalError (some e))
  | .assistantText text final => .acting [.observe (.onAssistantText text final)]
  | .callerTranscript text => .acting [.observe (.onCallerTranscript text)]
  | .turnComplete => .acting [.mark ("turn-" ++ itoa turn), .observe (.onTurnComplete turn)]
  | .interrupted => .acting [.clear, .observe .onInterrupted]
  | .toolCalls calls => .batch (.init calls)

def turnAfter (turn : Int) : LLMEvent V → Int
  | .turnComplete => wrap (turn + 1)
  | _ => turn

/-- The reason of a goroutine that exits with an error, and the next step of one that does not. -/
def audioSent : Option (Err V) → AudioPc V
  | none => .select
  | some e => .exiting (.record .fatalError (some e))

def eventsSent : Option (Err V) → EventsPc V
  | none => .select
  | some e => .exiting (.record .fatalError (some e))

def Action.shows (p : Bool) : Action V → Event V
  | .mark name => .mark name
  | .clear => .clear
  | .observe c => .callback c p

/-! ## Steps -/

inductive ExitStep : State σ τ V → Exit V → List (Event V) → State σ τ V → Exit V → Prop
  | X_Closed {s : State σ τ V} {r : EndReason} :
      ExitStep s (.record r none) [.recordEnd r none] (s.recordEnd r none) .gone
  | X_Failed {s : State σ τ V} {r : EndReason} {e : Err V} :
      ExitStep s (.record r (some e)) [.recordEnd r (some e)] (s.recordEnd r (some e)) (.report e)
  | X_Report {s : State σ τ V} {e : Err V} {p : Bool} :
      ExitStep s (.report e) [.callback (.onError e) p] s .cancel
  | X_Cancel {s : State σ τ V} : ExitStep s .cancel [] s.cancel .gone

inductive MainStep (P : Config σ τ V) : State σ τ V → List (Event V) → State σ τ V → Prop
  | M_Resolved {s : State σ τ V} {b : Bridge × Bridge} : s.main = .resolving → P.bridges = .ok b →
      MainStep P s [] { s with main := .opening }
  | M_Unresolved {s : State σ τ V} {e : Err V} : s.main = .resolving → P.bridges = .error e →
      MainStep P s [.unresolved e] { s with main := .failing e }
  | M_Fail {s : State σ τ V} {e : Err V} {p : Bool} : s.main = .failing e →
      MainStep P s [.callback (.onError e) p] { s with main := .failed e }
  -- nothing uses `runCtx` on this path, and the deferred `cancel()` is left out
  | M_Failed {s : State σ τ V} {e : Err V} {p : Bool} : s.main = .failed e →
      MainStep P s [.callback (.onSessionEnd .fatalError) p] { s with main := .returned (some e) }
  | M_Open {s : State σ τ V} {l : τ} : s.main = .opening → P.llm.openStep s.done s.llm none l →
      MainStep P s [] { s with llm := l }
  | M_Opened {s : State σ τ V} {l : τ} : s.main = .opening → P.llm.openStep s.done s.llm (some none) l →
      MainStep P s [.opened none] { s with llm := l, main := .injected }
  | M_OpenFailed {s : State σ τ V} {l : τ} {e : Err V} : s.main = .opening →
      P.llm.openStep s.done s.llm (some (some e)) l →
      MainStep P s [.opened (some e)] { s with llm := l, main := .failing e }
  | M_Injected {s : State σ τ V} {p : Bool} : s.main = .injected →
      MainStep P s [.callback (.onHistoryInjected P.setup.history.length) p] { s with main := .receiving }
  | M_Receive {s : State σ τ V} : s.main = .receiving →
      MainStep P s [] { s with transport := P.transport.start s.transport, main := .subscribing }
  | M_Events {s : State σ τ V} : s.main = .subscribing →
      MainStep P s [] { s with llm := P.llm.start s.llm, main := .starting }
  | M_Start {s : State σ τ V} {p : Bool} : s.main = .starting →
      MainStep P s [.callback .onSessionStart p] { s with audio := .select, events := .select, main := .waiting }
  | M_Done {s : State σ τ V} : s.main = .waiting → s.audio = .exiting .gone → s.events = .exiting .gone →
      MainStep P s [] { s with main := .closingTransport s.outcome.1 s.outcome.2 }
  | M_ContextDone {s : State σ τ V} : s.main = .waiting → s.ctx.isSome →
      MainStep P s [] { s.cancel with main := .draining }
  | M_Drained {s : State σ τ V} : s.main = .draining → s.audio = .exiting .gone → s.events = .exiting .gone →
      MainStep P s [] { s with main := .closingTransport s.outcome.1 s.outcome.2 }
  | M_CloseTransport {s : State σ τ V} {r : EndReason} {e : Option (Err V)} : s.main = .closingTransport r e →
      MainStep P s [.transportClose]
        { s with transport := P.transport.close s.transport, main := .closingLLM r e }
  | M_CloseLLM {s : State σ τ V} {r : EndReason} {e : Option (Err V)} : s.main = .closingLLM r e →
      MainStep P s [.llmClose] { s with llm := P.llm.close s.llm, main := .ending r e }
  | M_End {s : State σ τ V} {r : EndReason} {e : Option (Err V)} {p : Bool} : s.main = .ending r e →
      MainStep P s [.callback (.onSessionEnd r) p] { s.cancel with main := .returned e }

/-- The caller-audio goroutine. -/
inductive AudioStep (P : Config σ τ V) : State σ τ V → List (Event V) → State σ τ V → Prop
  | A_Frame {s : State σ τ V} {b : Bridge × Bridge} {f : Frame} {x : σ} : s.audio = .select →
      P.bridges = .ok b → P.transport.recv s.done s.transport (.item f) x →
      AudioStep P s [] { s with transport := x, audio := audioAfter b.1 f }
  | A_Closed {s : State σ τ V} {x : σ} : s.audio = .select →
      P.transport.recv s.done s.transport .closed x →
      AudioStep P s [] { s with transport := x, audio := .exiting (.record .transportClosed none) }
  | A_Error {s : State σ τ V} {e : Err V} {x : σ} : s.audio = .select →
      P.transport.recv s.done s.transport (.error e) x →
      AudioStep P s [] { s with transport := x, audio := .exiting (.record .fatalError (some e)) }
  | A_NoError {s : State σ τ V} {r : Recv Frame V} {x : σ} : s.audio = .select →
      r = .errorNil ∨ r = .errorClosed → P.transport.recv s.done s.transport r x →
      AudioStep P s [] { s with transport := x }
  | A_Send {s : State σ τ V} {f : Frame} (err : Option (Err V)) : s.audio = .sending f →
      AudioStep P s [.sendAudio f err] { s with audio := audioSent err }
  | A_Exit {s s' : State σ τ V} {x x' : Exit V} {evs : List (Event V)} : s.audio = .exiting x →
      ExitStep s x evs s' x' → AudioStep P s evs { s' with audio := .exiting x' }

/-- The LLM-events goroutine. -/
inductive EventsStep (P : Config σ τ V) : State σ τ V → List (Event V) → State σ τ V → Prop
  | E_Event {s : State σ τ V} {b : Bridge × Bridge} {ev : LLMEvent V} {l : τ} : s.events = .select →
      P.bridges = .ok b → P.llm.recv s.done s.llm (.item ev) l →
      EventsStep P s [.received ev] { s with
        llm := l, turn := turnAfter s.turn ev, events := dispatch b.2 (turnAfter s.turn ev) ev }
  | E_Closed {s : State σ τ V} {l : τ} : s.events = .select → P.llm.recv s.done s.llm .closed l →
      EventsStep P s [] { s with llm := l, events := .exiting (.record .llmClosed none) }
  | E_Error {s : State σ τ V} {e : Err V} {l : τ} : s.events = .select →
      P.llm.recv s.done s.llm (.error e) l →
      EventsStep P s [] { s with llm := l, events := .exiting (.record .fatalError (some e)) }
  | E_NoError {s : State σ τ V} {r : Recv (LLMEvent V) V} {l : τ} : s.events = .select →
      r = .errorNil ∨ r = .errorClosed → P.llm.recv s.done s.llm r l → EventsStep P s [] { s with llm := l }
  | E_Send {s : State σ τ V} {f : Frame} (err : Option (Err V)) : s.events = .sending f →
      EventsStep P s [.send f err] { s with events := eventsSent err }
  | E_Act {s : State σ τ V} {a : Action V} {as : List (Action V)} {p : Bool} : s.events = .acting (a :: as) →
      EventsStep P s [a.shows p] { s with events := .acting as }
  | E_Acted {s : State σ τ V} : s.events = .acting [] → EventsStep P s [] { s with events := .select }
  | E_Batch {s : State σ τ V} {b b' : Batch V} {evs : List (Event V)} : s.events = .batch b →
      CoreStep P.toolConcurrency b evs b' → EventsStep P s evs { s with events := .batch b' }
  | E_Finish {s : State σ τ V} {b : Batch V} : s.events = .batch b → b.pc = .finished →
      EventsStep P s [] { s with events := .select, holds := s.holds ++ [b.hold] }
  | E_Exit {s s' : State σ τ V} {x x' : Exit V} {evs : List (Event V)} : s.events = .exiting x →
      ExitStep s x evs s' x' → EventsStep P s evs { s' with events := .exiting x' }

/-- The watchdogs of the hold filler: the one of the running batch, and those of the batches that are
over, whose `done` is closed and whose `holdCtx` is done. -/
inductive FillerStep (P : Config σ τ V) : State σ τ V → List (Event V) → State σ τ V → Prop
  | F_Batch {s : State σ τ V} {b : Batch V} {h : HoldPc} {evs : List (Event V)} : s.events = .batch b →
      HoldStep P.filler b.done (b.holdCancelled || s.done) b.hold evs h →
      FillerStep P s evs { s with events := .batch { b with hold := h } }
  | F_Over {s : State σ τ V} (pre post : List HoldPc) {h h' : HoldPc} {evs : List (Event V)} :
      s.holds = pre ++ h :: post → HoldStep P.filler true true h evs h' →
      FillerStep P s evs { s with holds := pre ++ h' :: post }

/-- The goroutines of the adapters. -/
inductive AdapterStep (P : Config σ τ V) : State σ τ V → List (Event V) → State σ τ V → Prop
  | T_Tick {s : State σ τ V} {x : σ} {e : Option (Ending V)} : P.transport.tick s.done s.transport e x →
      AdapterStep P s (e.toList.map .transportEnded) { s with transport := x }
  | L_Tick {s : State σ τ V} {l : τ} {e : Option (Ending V)} : P.llm.tick s.done s.llm e l →
      AdapterStep P s (e.toList.map .llmEnded) { s with llm := l }

/-- The remote peers, and the caller's context. -/
inductive EnvStep (P : Config σ τ V) : State σ τ V → List (Event V) → State σ τ V → Prop
  | N_Transport {s : State σ τ V} {x : σ} : P.transport.peer s.transport x →
      EnvStep P s [] { s with transport := x }
  | N_LLM {s : State σ τ V} {l : τ} : P.llm.peer s.llm l → EnvStep P s [] { s with llm := l }
  | N_Context {s : State σ τ V} {e : Err V} : s.ctx = none → e = .canceled ∨ e = .deadlineExceeded →
      EnvStep P s [.contextDone e] { s with ctx := some e, runCtx := s.runCtx.or (some e) }

inductive Step (P : Config σ τ V) : State σ τ V → List (Event V) → State σ τ V → Prop
  | main {s s' : State σ τ V} {evs : List (Event V)} : MainStep P s evs s' → Step P s evs s'
  | audio {s s' : State σ τ V} {evs : List (Event V)} : AudioStep P s evs s' → Step P s evs s'
  | events {s s' : State σ τ V} {evs : List (Event V)} : EventsStep P s evs s' → Step P s evs s'
  | filler {s s' : State σ τ V} {evs : List (Event V)} : FillerStep P s evs s' → Step P s evs s'
  | adapter {s s' : State σ τ V} {evs : List (Event V)} : AdapterStep P s evs s' → Step P s evs s'
  | env {s s' : State σ τ V} {evs : List (Event V)} : EnvStep P s evs s' → Step P s evs s'

end Gopkg.Voice
