/-!
# Conversation state

`communication/telegram/bot/state`. The state of a user's multi-step command is kept in Redis under one
key, as JSON, and expires after `stateTTL`.
-/

namespace Gopkg.Telegram

inductive Command where
  | setrate
  | addcredit
  | ai
  | other (name : String)
  deriving DecidableEq, Repr

/-- `map[string]string`. -/
abbrev Data := List (String × String)

/-- `data[key]`, which is the empty string for a key that is absent. -/
def Data.get (d : Data) (key : String) : String := (d.lookup key).getD ""

/-- `data[key] = value`. -/
def Data.put (d : Data) (key value : String) : Data := (key, value) :: d.filter (fun p => p.1 != key)

structure ConversationState where
  command : Command
  step : Int
  data : Data
  -- Not in the source: which handler created the state. A handler that changes a state it has read keeps the
  -- mark.
  flow : Nat
  deriving DecidableEq, Repr

/-- The `/addcredit` conversation a stored state belongs to. -/
def ConversationState.creditFlow (cs : ConversationState) : Option Nat :=
  if cs.command = .addcredit then some cs.flow else none

end Gopkg.Telegram
