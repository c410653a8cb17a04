import Gopkg.Ai.Conversation
import Gopkg.Ai.Llm
import Gopkg.Digits.Hex

/-!
# Tool loop

`ai/orchestrator`: one message of the user is answered by asking the model, executing the tools it calls and asking
again, with what the tools returned appended to the turns.
-/

namespace Gopkg.Ai.Orchestrator

open Lts Llm

/-- What `Process` calls: the primary provider and the dispatcher of the caller. -/
inductive Op (P V D : Type) where
  | chat (provider : P) (req : ChatRequest V D)
  | dispatch (call : ToolCall V)

/-- The dispatcher returns its result, which may be nil, and an error. -/
abbrev Ans {P V D : Type} : Op P V D → Type
  | .chat _ _ => Except String (ChatResponse V)
  | .dispatch _ => Option V × Option String

abbrev Call (P V D α : Type) := Program (Op P V D) Ans α

structure Config (V D : Type) where
  systemPrompt : String
  tools : List D
  localeHint : String
  history : List (Conversation.Message (Fields V))
  maxToolHops : Int
  hasDispatcher : Bool
  -- `strconv.IsPrint`, whose tables are those of Unicode.
  isPrint : Char → Bool

structure ToolExecution (V : Type) where
  call : ToolCall V
  result : Option V
  error : Option String
  deriving DecidableEq, Repr

structure Result (V : Type) where
  assistantText : String
  toolHistory : List (ToolExecution V)
  finishReason : String
  deriving DecidableEq, Repr

variable {P V D : Type}

def messagesToTurns (msgs : List (Conversation.Message (Fields V))) : List (ChatTurn V) :=
  msgs.map fun m =>
    { role := if m.role = "assistant" ∨ m.role = "model" then "assistant" else "user"
      text := m.content, toolName := "", toolArgs := [], toolResult := none, toolSig := "" }

def toolTurn (call : ToolCall V) (result : Option V) : ChatTurn V :=
  { role := "tool", text := "", toolName := call.name, toolArgs := call.args, toolResult := result
    toolSig := call.thoughtSignature }

/-- The last `n` hexadecimal digits. -/
def hexDigits (code n : Nat) : List Char :=
  (List.range n).reverse.map fun i => Digits.Hex.digit ((code >>> (4 * i)) % 16)

/-- `appendEscapedRune` of the library. -/
def escapedRune (isPrint : Char → Bool) (c : Char) : List Char :=
  if c = '"' ∨ c = '\\' then ['\\', c]
  else if isPrint c then [c]
  else
    match [(7, 'a'), (8, 'b'), (12, 'f'), (10, 'n'), (13, 'r'), (9, 't'), (11, 'v')].lookup c.toNat with
    | some letter => ['\\', letter]
    | none =>
        if c.toNat < 0x20 ∨ c.toNat = 0x7f then '\\' :: 'x' :: hexDigits c.toNat 2
        else if c.toNat < 0x10000 then '\\' :: 'u' :: hexDigits c.toNat 4
        else '\\' :: 'U' :: hexDigits c.toNat 8

/-- `strconv.Quote`, which `%q` prints a string with. -/
def quoted (isPrint : Char → Bool) (s : String) : String :=
  String.ofList ('"' :: (s.toList.flatMap (escapedRune isPrint) ++ ['"']))

/-- `Registry.Chat`. -/
def chat (registry : Registry P) (req : ChatRequest V D) : Call P V D (Except String (ChatResponse V)) :=
  match registry.primary with
  | .error err => return .error err
  | .ok p => Program.perform (Op.chat p req)

/-- The loop over the calls of a response. -/
def dispatchCalls (cfg : Config V D) : List (ToolCall V) → List (ChatTurn V) → List (ToolExecution V) →
    Call P V D (Except String (List (ChatTurn V) × List (ToolExecution V)))
  | [], turns, toolHistory => return .ok (turns, toolHistory)
  | call :: calls, turns, toolHistory =>
      if cfg.hasDispatcher then do
        let (result, toolErr) ← Program.perform (Op.dispatch call)
        dispatchCalls cfg calls (turns ++ [toolTurn call result])
          (toolHistory ++ [{ call := call, result := result, error := toolErr }])
      else
        return .error s!"orchestrator: model called {quoted cfg.isPrint call.name} but no dispatcher provided"

/-- The loop over the hops. The turns go out as they are, with no new text of the user. -/
def hopLoop (registry : Registry P) (cfg : Config V D) : Nat → List (ChatTurn V) → List (ToolExecution V) →
    Call P V D (Except String (Result V))
  | 0, _, _ =>
      return .error s!"orchestrator: tool hop limit ({cfg.maxToolHops}) reached without a final text reply"
  | hops + 1, turns, toolHistory => do
      let answer ← chat registry
        { systemPrompt := cfg.systemPrompt, history := turns, userText := "", tools := cfg.tools
          localeHint := cfg.localeHint }
      match answer with
      | .error err => return .error s!"orchestrator: llm chat: {err}"
      | .ok resp =>
          if resp.toolCalls.isEmpty then
            return .ok
              { assistantText := resp.text, toolHistory := toolHistory, finishReason := resp.finishReason }
          else
            match ← dispatchCalls cfg resp.toolCalls turns toolHistory with
            | .error err => return .error err
            | .ok (turns, toolHistory) => hopLoop registry cfg hops turns toolHistory

def Config.withDefaults (cfg : Config V D) : Config V D :=
  if cfg.maxToolHops ≤ 0 then { cfg with maxToolHops := 5 } else cfg

/-- The turns before the first hop. -/
def startTurns (cfg : Config V D) (userText : String) : List (ChatTurn V) :=
  messagesToTurns cfg.history ++
    [{ role := "user", text := userText, toolName := "", toolArgs := [], toolResult := none, toolSig := "" }]

def process (registry : Registry P) (cfg : Config V D) (userText : String) : Call P V D (Except String (Result V)) :=
  let cfg := cfg.withDefaults
  hopLoop registry cfg cfg.maxToolHops.toNat (startTurns cfg userText) []

end Gopkg.Ai.Orchestrator
