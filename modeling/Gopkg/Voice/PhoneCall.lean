import Gopkg.Lts.Run
import Gopkg.Voice.Gemini
import Gopkg.Voice.Session
import Gopkg.Voice.Twilio

/-!
# A phone call

The session that bridges a Twilio call and Gemini Live: `Run` composed with the read loops of both adapters
and with their connections.
-/

namespace Gopkg.Voice

variable {V : Type}

/-- What a call is set up with, apart from the two connections. -/
structure CallSetup where
  filler : Filler
  toolConcurrency : Nat
  positive : 0 < toolConcurrency
  setup : SetupRequest

def phoneCall (V : Type) (C : CallSetup) : Config (Twilio.State V) (Gemini.State V) V where
  transport := Twilio.transport V
  llm := Gemini.llm V C.setup
  filler := C.filler
  toolConcurrency := C.toolConcurrency
  positive := C.positive
  setup := C.setup

abbrev CallState (V : Type) := State (Twilio.State V) (Gemini.State V) V

def CallState.init : CallState V := State.init (.fresh ()) .fresh

theorem bridges_phoneCall (C : CallSetup) :
    (phoneCall V C).bridges = .ok (.mulaw8kToPCM16LE16k, .pcm16LE24kToMulaw8k) := rfl

/-! ## Waiting for a silent peer -/

section

variable {μ β α ℓ : Type}

/-- The read loop is in `ReadMessage`, and there is nothing to read. -/
def Reader.Parked (r : Reader μ β α ℓ V) : Prop := r.pc = .reading ∧ r.inbox = [] ∧ r.conn = .live

/-- An error that the read loop has found and that nobody has received. -/
def Reader.Pending (r : Reader μ β α ℓ V) (e : Err V) : Prop := r.pc = .failing e ∨ r.errs = some e

end

/-- The steps of `Run` and of the adapters' goroutines. -/
inductive LocalStep (C : CallSetup) : CallState V → List (Event V) → CallState V → Prop
  | main {s s' : CallState V} {evs : List (Event V)} : MainStep (phoneCall V C) s evs s' → LocalStep C s evs s'
  | audio {s s' : CallState V} {evs : List (Event V)} : AudioStep (phoneCall V C) s evs s' → LocalStep C s evs s'
  | events {s s' : CallState V} {evs : List (Event V)} : EventsStep (phoneCall V C) s evs s' → LocalStep C s evs s'
  | adapter {s s' : CallState V} {evs : List (Event V)} : AdapterStep (phoneCall V C) s evs s' → LocalStep C s evs s'

/-- The caller-audio goroutine is gone, or waits for a read loop that is parked. -/
def CallState.AudioParked (s : CallState V) : Prop :=
  (s.audio = .exiting .gone ∧ (s.transport.Parked ∨ s.transport.pc = .exited)) ∨
    (s.audio = .select ∧ s.transport.Parked)

/-- The LLM-events goroutine is gone, or waits for a read loop that is parked. -/
def CallState.EventsParked (s : CallState V) : Prop :=
  (s.events = .exiting .gone ∧ (s.llm.reader.Parked ∨ s.llm.reader.pc = .exited)) ∨
    (s.events = .select ∧ s.llm.reader.Parked)

/-- `Run` is in `LLM.Open` and waits for `setupComplete`, or it waits for goroutines that wait for read loops
that are parked. -/
def CallState.Stuck (s : CallState V) : Prop :=
  (s.main = .opening ∧ s.llm.openPc = .awaiting ∧ s.llm.reader.inbox = [] ∧ s.llm.reader.conn = .live) ∨
    (s.main = .draining ∧ s.AudioParked ∧ s.EventsParked ∧ ¬ (s.audio = .exiting .gone ∧ s.events = .exiting .gone))

/-! ## Errors of the adapters -/

/-- The events that bring a session to its end, and who shows them. -/
inductive Terminal (V : Type) where
  | transport (e : Ending V)
  | llm (e : Ending V)
  | other

def Event.terminal? : Event V → Option (Terminal V)
  | .transportEnded e => some (.transport e)
  | .llmEnded e => some (.llm e)
  | .unresolved _ | .opened (some _) | .contextDone _ | .sendAudio _ (some _) | .send _ (some _) => some .other
  | _ => none

def firstTerminal (t : List (Event V)) : Option (Terminal V) := t.findSome? Event.terminal?

/-- An error that an adapter has found is on its way to `recordEnd`. -/
def CallState.UnderWay (s : CallState V) : Prop :=
  ∃ e, s.transport.Pending e ∨ s.llm.reader.Pending e ∨ s.audio = .exiting (.record .fatalError (some e)) ∨
    s.events = .exiting (.record .fatalError (some e))

/-- Another error that ends the session. -/
def Event.Competes : Event V → Prop
  | .transportEnded (.failed _) | .llmEnded (.failed _) | .sendAudio _ (some _) | .send _ (some _) => True
  | _ => False

/-- While an error is on its way and the session has no end yet, no other error comes up, and no `select` takes
the case of a closed channel. -/
def Attentive (s : CallState V) (evs : List (Event V)) (s' : CallState V) : Prop :=
  s.ended = none → s.UnderWay → (∀ ev ∈ evs, ¬ ev.Competes) ∧
    (s.audio = .select → s'.audio ≠ .exiting (.record .transportClosed none)) ∧
    (s.events = .select → s'.events ≠ .exiting (.record .llmClosed none))

end Gopkg.Voice
