import Gopkg.Ai.Llm

/-!
# Requests to Gemini

How `ai/llm/geminitext` renders the turns of a chat. Gemini wants the results of parallel calls grouped: one content
with all the calls, and one with all the responses.
-/

namespace Gopkg.Ai.Geminitext

open Llm

structure GeminiFunctionCall (V : Type) where
  name : String
  args : Fields V
  deriving DecidableEq, Repr

/-- `response` is the map under the key `result`, whose value may be nil. -/
structure GeminiFunctionResponse (V : Type) where
  name : String
  response : Fields (Option V)
  deriving DecidableEq, Repr

structure GeminiPart (V : Type) where
  text : String := ""
  functionCall : Option (GeminiFunctionCall V) := none
  functionResponse : Option (GeminiFunctionResponse V) := none
  thoughtSignature : String := ""
  deriving DecidableEq, Repr

structure GeminiContent (V : Type) where
  role : String
  parts : List (GeminiPart V)
  deriving DecidableEq, Repr

variable {V D : Type}

def callPart (t : ChatTurn V) : GeminiPart V :=
  { functionCall := some { name := t.toolName, args := t.toolArgs }, thoughtSignature := t.toolSig }

def respPart (t : ChatTurn V) : GeminiPart V :=
  { functionResponse := some { name := t.toolName, response := [("result", t.toolResult)] } }

/-- The contents of a run of tool turns. -/
def runContents (run : List (ChatTurn V)) : List (GeminiContent V) :=
  [{ role := "model", parts := run.map callPart }, { role := "user", parts := run.map respPart }]

def turnContents (turn : ChatTurn V) : List (GeminiContent V) :=
  if turn.role = "tool" then
    [{ role := "model", parts := [callPart turn] }, { role := "user", parts := [respPart turn] }]
  else
    [{ role := if turn.role = "assistant" then "model" else "user", parts := [{ text := turn.text }] }]

def isTool (turn : ChatTurn V) : Bool := turn.role == "tool"

/-- The loop of `chatContents`: a maximal run of tool turns is taken at once. -/
def historyContents : List (ChatTurn V) → List (GeminiContent V)
  | [] => []
  | turn :: h =>
      if isTool turn then
        runContents (turn :: h.takeWhile isTool) ++ historyContents (h.dropWhile isTool)
      else
        turnContents turn ++ historyContents h
  termination_by h => h.length
  decreasing_by
    · exact Nat.lt_succ_of_le (List.dropWhile_suffix isTool).length_le
    · exact Nat.lt_succ_self _

def chatContents (req : ChatRequest V D) : List (GeminiContent V) :=
  historyContents req.history ++
    if req.userText ≠ "" then [{ role := "user", parts := [{ text := req.userText }] }] else []

end Gopkg.Ai.Geminitext
