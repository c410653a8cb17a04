import Gopkg.Lts.Pool
import Gopkg.Telegram.World

/-!
# AI replies in flight

The handlers of one user's messages over the conversation state, with the part of a handler that is `HandleAIMessage`
marked as such. Between its reads and its writes other handlers go on, and the user may cancel.
-/

namespace Gopkg.Telegram.InFlight

open Lts

variable {F : Type}

inductive Task where
  | handler
  /-- `HandleAIMessage`, with the state that its last `Get` found. -/
  | ai (found : Option ConversationState)
  deriving DecidableEq

def Task.after : Task → (op : Op F) → Ans op → Task
  | .ai _, .stateGet, a => .ai (a.toOption.getD none)
  | task, _, _ => task

structure Shared where
  store : Option ConversationState
  nextFlow : Nat

/-- What Redis holds after an operation that took effect or did not. -/
def storeAfter (store : Option ConversationState) : Op F → (done : Bool) → Option ConversationState
  | .stateSet cs, true => some cs
  | .stateClear, true => none
  | _, _ => store

def system (h : HandlerSet F) : System Shared Task (Op F) Ans (Result F) where
  Start s task p s' := task = .handler ∧ s' = { s with nextFlow := s.nextFlow + 1 } ∧ ∃ m, p = handler h s.nextFlow m
  Act s task op a s' task' := task' = task.after op a ∧
    ∃ done, Answers s.store op done a ∧ s' = { s with store := storeAfter s.store op done }
  Enter task p task' := task = .handler ∧ task' = .ai none ∧ ∃ flow text, p = handleAIMessage h flow text
  -- The state expires.
  Env s s' := s' = { s with store := none }

def Shared.init (store : Option ConversationState) : Shared := { store := store, nextFlow := 0 }

/-- A write of `HandleAIMessage` takes effect only while Redis holds the state that its last read found. -/
def Current (s : Shared) (task : Task) (op : Op F) (_ : Ans op) (s' : Shared) : Prop :=
  ∀ found, task = .ai found → s'.store ≠ s.store → ∃ cs, found = some cs ∧ s.store = some cs

/-- The conversation is at the same step, with the same data except for the id of the AI conversation. -/
structure SameStep (cs cs' : ConversationState) : Prop where
  command : cs'.command = cs.command
  step : cs'.step = cs.step
  flow : cs'.flow = cs.flow
  data : ∀ key, key ≠ "ai_conversation_id" → cs'.data.get key = cs.data.get key

/-- No conversation appears or ends, and the one that is there stays at its step. -/
inductive Undisturbed : Option ConversationState → Option ConversationState → Prop
  | none : Undisturbed none none
  | some {cs cs' : ConversationState} : SameStep cs cs' → Undisturbed (some cs) (some cs')

end Gopkg.Telegram.InFlight
