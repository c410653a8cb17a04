/-!
# Values of the voice pipeline

`voice/pipeline/types.go`, `llm.go`, `observer.go` and `errors.go`. `V` is the type of the values that the
pipeline only passes on: the arguments and the data of tools, and what an error of an adapter carries. The
`Session` argument of the observer callbacks never changes during a run and is left out.
-/

namespace Gopkg.Voice

inductive Encoding where
  | mulaw
  | pcm16le
  | other (name : String)
  deriving DecidableEq, Repr

def Encoding.name : Encoding → String
  | .mulaw => "mulaw"
  | .pcm16le => "pcm16le"
  | .other name => name

structure AudioFormat where
  encoding : Encoding
  sampleRate : Int
  channels : Int
  deriving DecidableEq, Repr

structure Frame where
  data : List UInt8
  timestamp : Int
  deriving DecidableEq, Repr

inductive Err (V : Type) where
  -- An error of an adapter, of the executor or of a connection.
  | external (v : V)
  -- `fmt.Errorf("text: %w", err)`.
  | wrapped (text : String) (err : Err V)
  -- `ErrFormatBridge` with its text.
  | formatBridge (text : String)
  -- `ErrToolExecutorPanicked` with the value of the panic.
  | toolExecutorPanicked (v : V)
  | canceled
  | deadlineExceeded
  deriving DecidableEq, Repr

inductive Role where
  | user
  | assistant
  deriving DecidableEq, Repr

structure HistoryTurn where
  role : Role
  content : String
  deriving DecidableEq, Repr

/-- The fields of `SetupRequest` that `Run` and the adapters' `Open` read; `wakeSignal` is
`Extra["wake_signal"]`, empty when it is absent or not a string. -/
structure SetupRequest where
  history : List HistoryTurn
  wakeSignal : String
  deriving DecidableEq, Repr

structure ToolCall (V : Type) where
  id : String
  name : String
  args : V
  deriving DecidableEq, Repr

/-- `data` is `none` for a nil `any`. -/
structure ToolResult (V : Type) where
  callID : String
  data : Option V
  err : Option (Err V)
  deriving DecidableEq, Repr

inductive LLMEvent (V : Type) where
  | audioOut (frame : Frame)
  | assistantText (text : String) (final : Bool)
  | callerTranscript (text : String)
  | turnComplete
  | interrupted
  | toolCalls (calls : List (ToolCall V))
  deriving DecidableEq, Repr

inductive EndReason where
  | transportClosed
  | llmClosed
  | contextDone
  | fatalError
  deriving DecidableEq, Repr

/-- How a call of `ToolExecutor.Execute` ends. -/
inductive Outcome (V : Type) where
  | returned (data : Option V) (err : Option (Err V))
  | panicked (v : V)
  deriving DecidableEq, Repr

/-- What the worker stores for the call. -/
def toolResult {V : Type} (call : ToolCall V) : Outcome V → ToolResult V
  | .returned data err => { callID := call.id, data := data, err := err }
  | .panicked v => { callID := call.id, data := none, err := some (.toolExecutorPanicked v) }

inductive Callback (V : Type) where
  | onSessionStart
  | onHistoryInjected (count : Nat)
  | onCallerTranscript (text : String)
  | onAssistantText (text : String) (final : Bool)
  | onToolCall (call : ToolCall V)
  | onToolResponse (call : ToolCall V) (result : Option V) (err : Option (Err V))
  | onInterrupted
  | onTurnComplete (turn : Int)
  | onError (err : Err V)
  | onSessionEnd (reason : EndReason)
  deriving DecidableEq, Repr

/-- How the stream of an adapter comes to its end. -/
inductive Ending (V : Type) where
  | clean
  | failed (err : Err V)
  deriving DecidableEq, Repr

/-- What a run of the pipeline shows: the observer callbacks (`panicked` ones are recovered and logged),
the calls to the endpoints and to the executor with their results, and the calls of `recordEnd`. -/
inductive Event (V : Type) where
  | callback (c : Callback V) (panicked : Bool)
  | unresolved (err : Err V)
  | opened (err : Option (Err V))
  | transportEnded (e : Ending V)
  | llmEnded (e : Ending V)
  | contextDone (err : Err V)
  | received (ev : LLMEvent V)
  | sendAudio (f : Frame) (err : Option (Err V))
  | send (f : Frame) (err : Option (Err V))
  | sendFiller (f : Frame) (err : Option (Err V))
  | mark (name : String)
  | clear
  | executeBegin (i : Nat)
  | executeEnd (i : Nat) (o : Outcome V)
  | sendToolResults (results : List (ToolResult V)) (err : Option (Err V))
  | recordEnd (reason : EndReason) (err : Option (Err V))
  | transportClose
  | llmClose
  deriving DecidableEq, Repr

def Event.callback? {V : Type} : Event V → Option (Callback V)
  | .callback c _ => some c
  | _ => none

/-- The observer callbacks of a trace, in order. -/
def callbacks {V : Type} (t : List (Event V)) : List (Callback V) := t.filterMap Event.callback?

end Gopkg.Voice
