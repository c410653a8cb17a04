import Gopkg.Lts.Run

/-!
# Conversation history

`ai/conversation`, for one key of Redis. `Append` is a `GET` and, later, a `SET`; each is one step, and the steps of
several calls interleave. In `Step` the key stays; in `KeyStep` it may be cleared, or expire.
-/

namespace Gopkg.Ai.Conversation

open Lts

structure FunctionCall (A : Type) where
  name : String
  args : A
  id : String
  deriving DecidableEq, Repr

/-- A turn of the conversation. `timestamp` is `none` for the zero time. -/
structure Message (A : Type) where
  role : String
  channel : String
  content : String
  functionCall : Option (FunctionCall A)
  detectedIntent : String
  timestamp : Option Int
  deriving DecidableEq, Repr

/-- The JSON of a list of messages, which reads back as the list. -/
structure Codec (A Data : Type) where
  marshal : List (Message A) → Except String Data
  unmarshal : Data → Except String (List (Message A))
  unmarshal_marshal : ∀ {msgs data}, marshal msgs = .ok data → unmarshal data = .ok msgs

variable {A Data : Type}

def conversationMaxItems : Nat := 20

/-- The last `conversationMaxItems` messages. -/
def window (msgs : List (Message A)) : List (Message A) :=
  if conversationMaxItems < msgs.length then msgs.drop (msgs.length - conversationMaxItems) else msgs

def Message.stamped (now : Int) (msg : Message A) : Message A :=
  if msg.timestamp.isNone then { msg with timestamp := some now } else msg

/-- `Get`, on the answer of Redis to the `GET`: no value when the key is not there. -/
def Codec.get (c : Codec A Data) : Except String (Option Data) → Except String (List (Message A))
  | .ok none => .ok []
  | .error err => .error s!"get conversation: {err}"
  | .ok (some data) => (c.unmarshal data).mapError fun err => s!"unmarshal conversation: {err}"

/-- What `Append` does between its `GET` and its `SET`: the value to store. -/
def Codec.prepare (c : Codec A Data) (reply : Except String (Option Data)) (now : Int) (msg : Message A) :
    Except String Data := do
  let msgs ← c.get reply
  (c.marshal (window (msgs ++ [msg.stamped now]))).mapError fun err => s!"marshal conversation: {err}"

/-! ## Calls of `Append` -/

inductive Place (A Data : Type) where
  | getting (msg : Message A)
  /-- The `GET` found `read`, and `data` is to be stored, which ends in `msg`. -/
  | setting (read : Option Data) (msg : Message A) (data : Data)
  | returned (err : Option String)

structure World (A Data : Type) where
  store : Option Data
  calls : List (Place A Data)

def World.init : World A Data := { store := none, calls := [] }

inductive Event (A : Type) where
  | invoked (call : Nat) (msg : Message A)
  | stored (call : Nat) (msg : Message A)
  | returned (call : Nat) (err : Option String)
  deriving DecidableEq

inductive Step (c : Codec A Data) : World A Data → List (Event A) → World A Data → Prop
  | C_Append {w : World A Data} (msg : Message A) :
      Step c w [.invoked w.calls.length msg] { w with calls := w.calls ++ [.getting msg] }
  | C_Get {w : World A Data} {i : Nat} {msg : Message A} {data : Data} (now : Int) :
      w.calls[i]? = some (.getting msg) → c.prepare (.ok w.store) now msg = .ok data →
      Step c w [] { w with calls := w.calls.set i (.setting w.store (msg.stamped now) data) }
  | C_GetFailed {w : World A Data} {i : Nat} {msg : Message A} {reply : Except String (Option Data)} {err : String}
      (now : Int) :
      w.calls[i]? = some (.getting msg) → (∀ found, reply = .ok found → found = w.store) →
      c.prepare reply now msg = .error err →
      Step c w [.returned i (some err)] { w with calls := w.calls.set i (.returned (some err)) }
  | C_Set {w : World A Data} {i : Nat} {read : Option Data} {msg : Message A} {data : Data} :
      w.calls[i]? = some (.setting read msg data) →
      Step c w [.stored i msg, .returned i none] { store := some data, calls := w.calls.set i (.returned none) }
  -- A `SET` that is answered with an error may have taken effect all the same.
  | C_SetFailed {w : World A Data} {i : Nat} {read : Option Data} {msg : Message A} {data : Data} (err : String)
      (done : Bool) :
      w.calls[i]? = some (.setting read msg data) →
      Step c w ((if done then [.stored i msg] else []) ++ [.returned i (some s!"save conversation: {err}")])
        { store := if done then some data else w.store
          calls := w.calls.set i (.returned (some s!"save conversation: {err}")) }

/-- A `SET` takes effect only while Redis holds what the `GET` of its call found. -/
def Current (w : World A Data) (evs : List (Event A)) (_ : World A Data) : Prop :=
  ∀ i msg, .stored i msg ∈ evs → ∃ data, w.calls[i]? = some (.setting w.store msg data)

/-- The messages that were stored, each with its call. -/
def stored (t : List (Event A)) : List (Nat × Message A) :=
  t.filterMap fun
    | .stored i msg => some (i, msg)
    | .invoked _ _ | .returned _ _ => none

/-! ## `Recent` and `Clear` -/

/-- `Recent`, on the answer of Redis to the `GET`. -/
def Codec.recent (c : Codec A Data) (n : Int) (reply : Except String (Option Data)) :
    Except String (List (Message A)) := do
  let msgs ← c.get reply
  if n ≤ 0 ∨ msgs.length ≤ n then return msgs else return msgs.drop (msgs.length - n.toNat)

/-- The steps of `Append`, and the key going: by `Clear`, or by itself after `ConversationTTL`. -/
inductive KeyStep (c : Codec A Data) : World A Data → List (Event A) → World A Data → Prop
  | append {w w' : World A Data} {evs : List (Event A)} : Step c w evs w' → KeyStep c w evs w'
  | K_Gone {w : World A Data} : KeyStep c w [] { w with store := none }

end Gopkg.Ai.Conversation
