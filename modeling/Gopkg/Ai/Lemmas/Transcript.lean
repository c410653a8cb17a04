import Gopkg.Lts.Run
import Gopkg.Ai.Orchestrator
import Gopkg.Ai.Lemmas.Contents

/-!
# What the model is sent

The turns of a hop are those before the first one and a tool turn for each call that was dispatched since.
-/

namespace Gopkg.Ai.Orchestrator

open Lts Llm Geminitext

variable {P V D : Type} {registry : Registry P} {cfg : Config V D} {base turns : List (ChatTurn V)}
  {toolHistory : List (ToolExecution V)} {hops : Nat}

/-! ## The program -/

/-- What `hopLoop` does after the calls of a hop. -/
def afterCalls (registry : Registry P) (cfg : Config V D) (hops : Nat) :
    Except String (List (ChatTurn V) × List (ToolExecution V)) → Call P V D (Except String (Result V))
  | .error err => .ret (.error err)
  | .ok (turns, toolHistory) => hopLoop registry cfg hops turns toolHistory

/-- What `hopLoop` does with the answer of the model. -/
def afterChat (registry : Registry P) (cfg : Config V D) (hops : Nat) (turns : List (ChatTurn V))
    (toolHistory : List (ToolExecution V)) :
    Except String (ChatResponse V) → Call P V D (Except String (Result V))
  | .error err => .ret (.error s!"orchestrator: llm chat: {err}")
  | .ok resp =>
      if resp.toolCalls.isEmpty then
        .ret (.ok { assistantText := resp.text, toolHistory := toolHistory, finishReason := resp.finishReason })
      else
        (dispatchCalls cfg resp.toolCalls turns toolHistory).bind (afterCalls registry cfg hops)

theorem hopLoop_succ {p : P} (hp : registry.primary = .ok p) :
    hopLoop registry cfg (hops + 1) turns toolHistory =
      .call (.chat p ⟨cfg.systemPrompt, turns, "", cfg.tools, cfg.localeHint⟩)
        (afterChat registry cfg hops turns toolHistory) := by
  rw [hopLoop, chat, hp]
  refine congrArg _ (funext fun answer => ?_)
  cases answer <;> rfl

theorem hopLoop_no_provider {err : String} (hp : registry.primary = .error err) :
    hopLoop registry cfg (hops + 1) turns toolHistory = .ret (.error s!"orchestrator: llm chat: {err}") := by
  rw [hopLoop, chat, hp]
  rfl

theorem dispatchCalls_cons {call : ToolCall V} {calls : List (ToolCall V)} (h : cfg.hasDispatcher = true) :
    (dispatchCalls cfg (call :: calls) turns toolHistory : Call P V D _) =
      .call (.dispatch call) fun answer => dispatchCalls cfg calls (turns ++ [toolTurn call answer.1])
        (toolHistory ++ [{ call := call, result := answer.1, error := answer.2 }]) := by
  rw [dispatchCalls, if_pos h]
  rfl

/-! ## Histories -/

/-- An operation of `Process` with its answer. -/
abbrev Exchange (P V D : Type) := (op : Op P V D) × Ans op

variable {t : List (Exchange P V D)} {p p' : Call P V D (Except String (Result V))} {evs : List (Exchange P V D)}

/-- A tool turn for each call that was dispatched. -/
def toolTurns (t : List (Exchange P V D)) : List (ChatTurn V) :=
  t.filterMap fun
    | ⟨.dispatch call, answer⟩ => some (toolTurn call answer.1)
    | ⟨.chat _ _, _⟩ => none

/-- The calls of the model that are to be dispatched before it is asked again; none when it is not asked again. -/
def owedAfter : Option (List (ToolCall V)) → Exchange P V D → Option (List (ToolCall V))
  | some [], ⟨.chat _ _, .ok resp⟩ => if resp.toolCalls.isEmpty then none else some resp.toolCalls
  | some (_ :: calls), ⟨.dispatch _, _⟩ => some calls
  | _, _ => none

def owed (t : List (Exchange P V D)) : Option (List (ToolCall V)) := t.foldl owedAfter (some [])

/-- When an operation is performed: the model is asked once its calls have been dispatched, with their turns, and they
are dispatched in order. -/
def Due (base : List (ChatTurn V)) (t : List (Exchange P V D)) : Exchange P V D → Prop
  | ⟨.chat _ req, _⟩ => owed t = some [] ∧ req.history = base ++ toolTurns t ∧ req.userText = ""
  | ⟨.dispatch call, _⟩ => ∃ calls, owed t = some (call :: calls)

theorem owed_snoc (t : List (Exchange P V D)) (ev : Exchange P V D) : owed (t ++ [ev]) = owedAfter (owed t) ev := by
  rw [owed, List.foldl_append]
  rfl

theorem toolTurns_append (t t' : List (Exchange P V D)) : toolTurns (t ++ t') = toolTurns t ++ toolTurns t' :=
  List.filterMap_append

@[simp] theorem toolTurns_chat {t : List (Exchange P V D)} {q : P} {req : ChatRequest V D}
    {answer : Except String (ChatResponse V)} : toolTurns (t ++ [⟨.chat q req, answer⟩]) = toolTurns t := by
  rw [toolTurns_append]
  exact List.append_nil _

@[simp] theorem toolTurns_dispatch {t : List (Exchange P V D)} {call : ToolCall V}
    {answer : Option V × Option String} :
    toolTurns (t ++ [⟨.dispatch call, answer⟩]) = toolTurns t ++ [toolTurn call answer.1] :=
  toolTurns_append t _

/-- What is left to do after the operations `t`. -/
inductive Left (registry : Registry P) (cfg : Config V D) (base : List (ChatTurn V)) (t : List (Exchange P V D)) :
    Call P V D (Except String (Result V)) → Prop
  | hop {hops : Nat} {turns : List (ChatTurn V)} {toolHistory : List (ToolExecution V)} :
      owed t = some [] → turns = base ++ toolTurns t →
      Left registry cfg base t (hopLoop registry cfg hops turns toolHistory)
  | calls {calls : List (ToolCall V)} {hops : Nat} {turns : List (ChatTurn V)} {toolHistory : List (ToolExecution V)} :
      owed t = some calls → turns = base ++ toolTurns t →
      Left registry cfg base t ((dispatchCalls cfg calls turns toolHistory).bind (afterCalls registry cfg hops))
  | returned {r : Except String (Result V)} : Left registry cfg base t (.ret r)

theorem hopLoop_step (howed : owed t = some []) (hturns : turns = base ++ toolTurns t)
    (hs : Program.Step (hopLoop registry cfg hops turns toolHistory) evs p') :
    ∃ ev, evs = [ev] ∧ Due base t ev ∧ Left registry cfg base (t ++ [ev]) p' := by
  cases hops with
  | zero => cases hs
  | succ hops =>
      cases hp : registry.primary with
      | error err =>
          rw [hopLoop_no_provider hp] at hs
          cases hs
      | ok q =>
          rw [hopLoop_succ hp] at hs
          cases hs with
          | P_Call a =>
              refine ⟨_, rfl, ⟨howed, hturns, rfl⟩, ?_⟩
              cases a with
              | error err => exact .returned
              | ok resp =>
                  by_cases hcalls : resp.toolCalls.isEmpty
                  · rw [afterChat, if_pos hcalls]
                    exact .returned
                  · rw [afterChat, if_neg hcalls]
                    refine .calls ?_ (by rw [toolTurns_chat, hturns])
                    rw [owed_snoc, howed, owedAfter, if_neg hcalls]

theorem Left.step (h : Left registry cfg base t p) (hs : Program.Step p evs p') :
    ∃ ev, evs = [ev] ∧ Due base t ev ∧ Left registry cfg base (t ++ [ev]) p' := by
  cases h with
  | hop howed hturns => exact hopLoop_step howed hturns hs
  | @calls calls hops turns toolHistory howed hturns =>
      cases calls with
      | nil => exact hopLoop_step howed hturns hs
      | cons call calls =>
          by_cases hd : cfg.hasDispatcher
          · rw [dispatchCalls_cons hd] at hs
            cases hs with
            | P_Call a =>
                refine ⟨_, rfl, ⟨calls, howed⟩, .calls ?_ ?_⟩
                · rw [owed_snoc, howed]
                  rfl
                · rw [toolTurns_dispatch, hturns, List.append_assoc]
          · rw [dispatchCalls, if_neg hd] at hs
            cases hs
  | returned => cases hs

theorem Due.run {userText : String} (hr : Run Program.Step (process registry cfg userText) t p) :
    Each (Due (startTurns cfg.withDefaults userText)) t := by
  have hleft : Each (Due (startTurns cfg.withDefaults userText)) t ∧
      Left registry cfg.withDefaults (startTurns cfg.withDefaults userText) t p := by
    refine hr.invariant (I := fun t p => Each (Due (startTurns cfg.withDefaults userText)) t ∧
      Left registry cfg.withDefaults (startTurns cfg.withDefaults userText) t p) ⟨.nil, .hop rfl ?_⟩ ?_
    · exact (List.append_nil _).symm
    · rintro t p evs p' ⟨heach, hleft⟩ hs
      obtain ⟨ev, rfl, hdue, hleft'⟩ := hleft.step hs
      exact ⟨heach.snoc hdue, hleft'⟩
  exact hleft.1

/-! ## Hops -/

/-- A call that was dispatched, with what came back. -/
def dispatched (d : ToolCall V × Option V × Option String) : Exchange P V D := ⟨.dispatch d.1, d.2⟩

theorem toolTurns_dispatched (ds : List (ToolCall V × Option V × Option String)) :
    toolTurns (ds.map (dispatched (P := P) (D := D))) = ds.map fun d => toolTurn d.1 d.2.1 := by
  induction ds with
  | nil => rfl
  | cons d ds ih =>
      rw [List.map_cons, List.map_cons, ← ih]
      rfl

/-- The calls that are dispatched one after the other are those that were owed. -/
theorem owed_dispatched {ds : List (ToolCall V × Option V × Option String)} {calls : List (ToolCall V)}
    {t : List (Exchange P V D)} (t₂ : List (Exchange P V D)) (h : Each (Due base) (t ++ ds.map dispatched ++ t₂))
    (howed : owed t = some calls) :
    ∃ rest, owed (t ++ ds.map dispatched) = some rest ∧ calls = ds.map Prod.fst ++ rest := by
  induction ds generalizing t calls with
  | nil => exact ⟨calls, by simpa using howed, rfl⟩
  | cons d ds ih =>
      obtain ⟨rest, hrest⟩ : Due base t (dispatched d) := h t (dispatched d) (ds.map dispatched ++ t₂) (by simp)
      obtain rfl : calls = d.1 :: rest := Option.some.inj (howed.symm.trans hrest)
      have howed' : owed (t ++ [dispatched d]) = some rest := by
        rw [owed_snoc, howed]
        rfl
      obtain ⟨rest', hrest', rfl⟩ := ih (t := t ++ [dispatched d]) (by simpa using h) howed'
      exact ⟨rest', by simpa using hrest', rfl⟩

/-- Two requests with only dispatched calls between them. -/
theorem Due.hop {t₁ t₂ : List (Exchange P V D)} {q q' : P} {req req' : ChatRequest V D} {resp : ChatResponse V}
    {answer : Except String (ChatResponse V)} {ds : List (ToolCall V × Option V × Option String)}
    (h : Each (Due base)
      (t₁ ++ ⟨.chat q req, .ok resp⟩ :: (ds.map dispatched ++ ⟨.chat q' req', answer⟩ :: t₂))) :
    req.history = base ++ toolTurns t₁ ∧ req.userText = "" ∧ ds.map Prod.fst = resp.toolCalls ∧
      resp.toolCalls ≠ [] ∧ req'.history = req.history ++ (ds.map fun d => toolTurn d.1 d.2.1) ∧
      req'.userText = "" := by
  obtain ⟨howed, hhist, htext⟩ := h t₁ _ _ rfl
  let first : Exchange P V D := ⟨.chat q req, .ok resp⟩
  obtain ⟨howed', hhist', htext'⟩ : Due base (t₁ ++ [first] ++ ds.map dispatched) ⟨.chat q' req', answer⟩ :=
    h _ _ t₂ (by simp [first])
  have hcalls : resp.toolCalls.isEmpty = false := by
    refine Bool.eq_false_iff.mpr fun hempty => ?_
    -- the program has returned, so that nothing is due any more
    have hnone : owed (t₁ ++ [first]) = none := by rw [owed_snoc, howed, owedAfter, if_pos hempty]
    cases ds with
    | nil =>
        rw [List.map_nil, List.append_nil, hnone] at howed'
        cases howed'
    | cons d ds =>
        obtain ⟨calls, hd⟩ : Due base (t₁ ++ [first]) (dispatched d) :=
          h _ _ (ds.map dispatched ++ ⟨.chat q' req', answer⟩ :: t₂) (by simp [first])
        cases hnone.symm.trans hd
  have howed₁ : owed (t₁ ++ [first]) = some resp.toolCalls := by
    rw [owed_snoc, howed, owedAfter, hcalls]
    rfl
  obtain ⟨rest, hrest, hsplit⟩ :=
    owed_dispatched (⟨.chat q' req', answer⟩ :: t₂) (by simpa [first] using h) howed₁
  obtain rfl : rest = [] := Option.some.inj (hrest.symm.trans howed')
  refine ⟨hhist, htext, ?_, ?_, ?_, htext'⟩
  · rw [hsplit, List.append_nil]
  · simpa using hcalls
  · rw [hhist', hhist, toolTurns_append, toolTurns_chat, toolTurns_dispatched, List.append_assoc]

/-- The model is not asked twice in a row. -/
theorem owedAfter_chat_ne (o : Option (List (ToolCall V))) (q : P) (req : ChatRequest V D)
    (answer : Except String (ChatResponse V)) : owedAfter o ⟨.chat q req, answer⟩ ≠ some [] := by
  rcases o with _ | _ | ⟨call, calls⟩
  · exact nofun
  · cases answer with
    | error err => exact nofun
    | ok resp =>
        rw [owedAfter]
        split
        · exact nofun
        · rename_i hcalls
          exact fun h => hcalls (by rw [Option.some.inj h]; rfl)
  · exact nofun

/-- By the second hop a call has been dispatched. -/
theorem toolTurns_ne_nil (howed : owed t = some []) (hne : t ≠ []) : toolTurns t ≠ [] := by
  obtain ⟨t, ⟨op, answer⟩, rfl⟩ := (List.eq_nil_or_concat t).resolve_left hne
  rw [List.concat_eq_append] at howed ⊢
  cases op with
  | dispatch call =>
      rw [toolTurns_dispatch]
      exact List.append_ne_nil_of_right_ne_nil _ (List.cons_ne_nil _ _)
  | chat q req =>
      rw [owed_snoc] at howed
      exact absurd howed (owedAfter_chat_ne _ _ _ _)

/-! ## Contents -/

/-- The calls of a hop, with their thought signatures. -/
def callsContent (calls : List (ToolCall V)) : GeminiContent V where
  role := "model"
  parts := calls.map fun call =>
    { functionCall := some { name := call.name, args := call.args }, thoughtSignature := call.thoughtSignature }

/-- What came back for the calls of a hop. -/
def responsesContent (ds : List (ToolCall V × Option V × Option String)) : GeminiContent V where
  role := "user"
  parts := ds.map fun d => { functionResponse := some { name := d.1.name, response := [("result", d.2.1)] } }

theorem runContents_toolTurns (ds : List (ToolCall V × Option V × Option String)) :
    runContents (ds.map fun d => toolTurn d.1 d.2.1) = [callsContent (ds.map Prod.fst), responsesContent ds] := by
  simp only [runContents, callsContent, responsesContent, List.map_map]
  rfl

theorem chatContents_of_no_text {req : ChatRequest V D} (h : req.userText = "") :
    chatContents req = historyContents req.history := by
  rw [chatContents, if_neg (not_not.mpr h), List.append_nil]

theorem isTool_startTurns (cfg : Config V D) (userText : String) :
    ∀ turn ∈ startTurns cfg userText, isTool turn = false := by
  intro turn hturn
  rcases List.mem_append.mp hturn with hturn | hturn
  · obtain ⟨m, _, rfl⟩ := List.mem_map.mp hturn
    dsimp only [isTool]
    split <;> rfl
  · rw [List.mem_singleton.mp hturn]
    rfl

theorem isTool_toolTurns (t : List (Exchange P V D)) : ∀ turn ∈ toolTurns t, isTool turn = true := by
  intro turn hturn
  obtain ⟨⟨op, answer⟩, _, hev⟩ := List.mem_filterMap.mp hturn
  cases op with
  | chat q req => cases hev
  | dispatch call =>
      cases hev
      rfl

/-! ## Errors of tools -/

/-- Answers that differ only in the error of a tool. -/
def SameResult : (op : Op P V D) → Ans op → Ans op → Prop
  | .chat _ _, answer, answer' => answer = answer'
  | .dispatch _, answer, answer' => answer.1 = answer'.1

def SameTurns (r r' : Except String (List (ChatTurn V) × List (ToolExecution V))) : Prop :=
  r.map Prod.fst = r'.map Prod.fst

theorem dispatchCalls_alike (calls : List (ToolCall V)) (turns : List (ChatTurn V))
    (toolHistory toolHistory' : List (ToolExecution V)) :
    Program.Alike (SameResult (P := P) (D := D)) SameTurns (dispatchCalls cfg calls turns toolHistory)
      (dispatchCalls cfg calls turns toolHistory') := by
  induction calls generalizing turns toolHistory toolHistory' with
  | nil => exact .ret rfl
  | cons call calls ih =>
      by_cases hd : cfg.hasDispatcher = true
      · rw [dispatchCalls_cons hd, dispatchCalls_cons hd]
        refine .call fun answer answer' hresult => ?_
        have hsame : answer.1 = answer'.1 := hresult
        rw [hsame]
        exact ih _ _ _
      · rw [dispatchCalls, dispatchCalls, if_neg hd, if_neg hd]
        exact .ret rfl

theorem hopLoop_alike (hops : Nat) (turns : List (ChatTurn V)) (toolHistory toolHistory' : List (ToolExecution V)) :
    Program.Alike SameResult (fun _ _ => True) (hopLoop registry cfg hops turns toolHistory)
      (hopLoop registry cfg hops turns toolHistory') := by
  induction hops generalizing turns toolHistory toolHistory' with
  | zero => exact .ret trivial
  | succ hops ih =>
      cases hp : registry.primary with
      | error err =>
          rw [hopLoop_no_provider hp, hopLoop_no_provider hp]
          exact .ret trivial
      | ok q =>
          rw [hopLoop_succ hp, hopLoop_succ hp]
          refine .call fun answer answer' hanswer => ?_
          obtain rfl : answer = answer' := hanswer
          cases answer with
          | error err => exact .ret trivial
          | ok resp =>
              by_cases hcalls : resp.toolCalls.isEmpty
              · rw [afterChat, afterChat, if_pos hcalls, if_pos hcalls]
                exact .ret trivial
              · rw [afterChat, afterChat, if_neg hcalls, if_neg hcalls]
                refine (dispatchCalls_alike resp.toolCalls turns toolHistory toolHistory').bind fun r r' hr => ?_
                -- with the same turns only the history of the tools is different
                rcases r with err | ⟨turns₁, h₁⟩ <;> rcases r' with err' | ⟨turns₂, h₂⟩ <;> cases hr
                · exact .ret trivial
                · exact ih _ _ _

theorem process_alike (registry : Registry P) (cfg : Config V D) (userText : String) :
    Program.Alike SameResult (fun _ _ => True) (process registry cfg userText) (process registry cfg userText) :=
  hopLoop_alike _ _ _ _

theorem sameResult_refl (op : Op P V D) (answer : Ans op) : SameResult op answer answer := by
  cases op <;> rfl

/-- A history with another error for one of its calls. -/
theorem alike_of_error (t₁ t₂ : List (Exchange P V D)) (call : ToolCall V) (result : Option V)
    (err err' : Option String) : List.Forall₂ (Program.AlikeEvent SameResult)
      (t₁ ++ ⟨.dispatch call, (result, err)⟩ :: t₂) (t₁ ++ ⟨.dispatch call, (result, err')⟩ :: t₂) := by
  have hsame : ∀ t : List (Exchange P V D), List.Forall₂ (Program.AlikeEvent SameResult) t t :=
    fun t => List.forall₂_same.mpr fun ev _ => .mk (sameResult_refl ev.1 ev.2)
  exact List.rel_append (hsame t₁) (.cons (.mk rfl) (hsame t₂))

end Gopkg.Ai.Orchestrator
