import Gopkg.Lts.Program

/-!
# Text providers

`ai/llm`: the requests and responses of a chat, and the registry of providers. `V` is the type of JSON values, `D`
that of tool declarations, which are passed on as they are.
-/

namespace Gopkg.Ai.Llm

/-- A `map[string]any`. -/
abbrev Fields (V : Type) := List (String × V)

structure ChatTurn (V : Type) where
  role : String
  text : String
  toolName : String
  toolArgs : Fields V
  toolResult : Option V
  toolSig : String
  deriving DecidableEq, Repr

structure ChatRequest (V D : Type) where
  systemPrompt : String
  history : List (ChatTurn V)
  userText : String
  tools : List D
  localeHint : String
  deriving DecidableEq, Repr

structure ToolCall (V : Type) where
  id : String
  name : String
  args : Fields V
  thoughtSignature : String
  deriving DecidableEq, Repr

structure ChatResponse (V : Type) where
  text : String
  toolCalls : List (ToolCall V)
  finishReason : String
  deriving DecidableEq, Repr

/-- The providers in the order of their priority. -/
structure Registry (P : Type) where
  providers : List P
  deriving DecidableEq, Repr

def errNoProviders : String := "llm: no providers registered"

def Registry.primary {P : Type} (r : Registry P) : Except String P :=
  match r.providers with
  | [] => .error errNoProviders
  | p :: _ => .ok p

end Gopkg.Ai.Llm
