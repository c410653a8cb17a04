import Gopkg.Ai.Lemmas.Transcript

/-!
# How the tool loop ends
-/

namespace Gopkg.Ai.Orchestrator

open Lts Llm

variable {P V D : Type} {registry : Registry P} {cfg : Config V D} {turns : List (ChatTurn V)}
  {toolHistory : List (ToolExecution V)} {hops : Nat} {t t' : List (Exchange P V D)}
  {r : Except String (Result V)}

/-! ## What was done -/

/-- What the model answered, an error being one. -/
def replies (t : List (Exchange P V D)) : List (Except String (ChatResponse V)) :=
  t.filterMap fun
    | ⟨.chat _ _, answer⟩ => some answer
    | ⟨.dispatch _, _⟩ => none

/-- The calls that were dispatched, with what came back. -/
def executions (t : List (Exchange P V D)) : List (ToolExecution V) :=
  t.filterMap fun
    | ⟨.dispatch call, answer⟩ => some ⟨call, answer.1, answer.2⟩
    | ⟨.chat _ _, _⟩ => none

def executionOf (d : ToolCall V × Option V × Option String) : ToolExecution V := ⟨d.1, d.2.1, d.2.2⟩

def callsOf : Except String (ChatResponse V) → List (ToolCall V)
  | .ok resp => resp.toolCalls
  | .error _ => []

/-- The model has called a tool in each of these. -/
def AllCalling (answers : List (Except String (ChatResponse V))) : Prop := ∀ answer ∈ answers, callsOf answer ≠ []

theorem allCalling_nil : AllCalling ([] : List (Except String (ChatResponse V))) := List.forall_mem_nil _

/-- Every call of the model was executed, once and in order. -/
def Executed (t : List (Exchange P V D)) : Prop :=
  (executions t).map ToolExecution.call = (replies t).flatMap callsOf

theorem replies_append (t t' : List (Exchange P V D)) : replies (t ++ t') = replies t ++ replies t' :=
  List.filterMap_append

theorem executions_append (t t' : List (Exchange P V D)) : executions (t ++ t') = executions t ++ executions t' :=
  List.filterMap_append

theorem replies_dispatched (ds : List (ToolCall V × Option V × Option String)) :
    replies (ds.map (dispatched (P := P) (D := D))) = [] := by
  induction ds with
  | nil => rfl
  | cons d ds ih => exact ih

theorem executions_dispatched (ds : List (ToolCall V × Option V × Option String)) :
    executions (ds.map (dispatched (P := P) (D := D))) = ds.map executionOf := by
  induction ds with
  | nil => rfl
  | cons d ds ih => exact congrArg (_ :: ·) ih

/-! ## How it ends -/

/-- The ends of the loop. The result tells of all executions, those before the loop included. As long as the loop goes
on, the model calls tools. -/
inductive Ending (registry : Registry P) (cfg : Config V D) (hops : Nat) (toolHistory : List (ToolExecution V))
    (t : List (Exchange P V D)) : Except String (Result V) → Prop
  | answered {resp : ChatResponse V} {history : List (ToolExecution V)} :
      (replies t).getLast? = some (.ok resp) → resp.toolCalls = [] → AllCalling (replies t).dropLast → Executed t →
      history = toolHistory ++ executions t →
      Ending registry cfg hops toolHistory t (.ok ⟨resp.text, history, resp.finishReason⟩)
  | failed {err : String} : (replies t).getLast? = some (.error err) → AllCalling (replies t).dropLast → Executed t →
      Ending registry cfg hops toolHistory t (.error s!"orchestrator: llm chat: {err}")
  | unregistered : registry.providers = [] → t = [] →
      Ending registry cfg hops toolHistory t (.error s!"orchestrator: llm chat: {errNoProviders}")
  | undispatched {resp : ChatResponse V} {call : ToolCall V} : cfg.hasDispatcher = false → replies t = [.ok resp] →
      resp.toolCalls.head? = some call → executions t = [] → Ending registry cfg hops toolHistory t
        (.error s!"orchestrator: model called {quoted cfg.isPrint call.name} but no dispatcher provided")
  | limit : (replies t).length = hops → AllCalling (replies t) → Executed t → Ending registry cfg hops toolHistory t
      (.error s!"orchestrator: tool hop limit ({cfg.maxToolHops}) reached without a final text reply")

/-- The calls of a hop are dispatched, or the first one finds no dispatcher. -/
theorem dispatchCalls_run {k : Except String (List (ChatTurn V) × List (ToolExecution V)) →
      Call P V D (Except String (Result V))} (calls : List (ToolCall V))
    (hr : Run Program.Step ((dispatchCalls cfg calls turns toolHistory).bind k) t (.ret r)) :
    (∃ (ds : List (ToolCall V × Option V × Option String)) (t' : List (Exchange P V D)),
      t = ds.map dispatched ++ t' ∧ ds.map Prod.fst = calls ∧ (calls = [] ∨ cfg.hasDispatcher = true) ∧
      Run Program.Step (k (.ok (turns ++ ds.map (fun d => toolTurn d.1 d.2.1), toolHistory ++ ds.map executionOf)))
        t' (.ret r)) ∨
    cfg.hasDispatcher = false ∧ ∃ call, calls.head? = some call ∧ Run Program.Step
      (k (.error s!"orchestrator: model called {quoted cfg.isPrint call.name} but no dispatcher provided")) t
      (.ret r) := by
  induction calls generalizing turns toolHistory t with
  | nil =>
      refine .inl ⟨[], t, rfl, rfl, .inl rfl, ?_⟩
      rw [List.map_nil, List.map_nil, List.append_nil, List.append_nil]
      exact hr
  | cons call calls ih =>
      by_cases hd : cfg.hasDispatcher = true
      · rw [dispatchCalls_cons hd] at hr
        obtain ⟨answer, t₁, rfl, hnext⟩ := Program.run_call (Op.dispatch call) rfl hr
        rcases ih hnext with ⟨ds, t', rfl, hcalls, _, hrest⟩ | ⟨hnone, _⟩
        · refine .inl ⟨(call, answer) :: ds, t', rfl, congrArg (call :: ·) hcalls, .inr hd, ?_⟩
          rw [List.append_assoc, List.append_assoc] at hrest
          exact hrest
        · exact absurd (hnone.symm.trans hd) Bool.false_ne_true
      · rw [dispatchCalls, if_neg hd] at hr
        exact .inr ⟨Bool.not_eq_true _ ▸ hd, call, rfl, hr⟩

section Hop

variable (q : P) (req : ChatRequest V D) (resp : ChatResponse V) (ds : List (ToolCall V × Option V × Option String))
  (t : List (Exchange P V D))

/-- The operations of a hop, and those after it. -/
def withHop : List (Exchange P V D) := ⟨.chat q req, .ok resp⟩ :: (ds.map dispatched ++ t)

theorem replies_withHop : replies (withHop q req resp ds t) = .ok resp :: replies t := by
  show Except.ok resp :: replies (ds.map dispatched ++ t) = _
  rw [replies_append, replies_dispatched, List.nil_append]

theorem executions_withHop : executions (withHop q req resp ds t) = ds.map executionOf ++ executions t := by
  show executions (ds.map dispatched ++ t) = _
  rw [executions_append, executions_dispatched]

variable {q req resp ds t}

theorem Executed.after_hop (h : Executed t) (hcalls : ds.map Prod.fst = resp.toolCalls) :
    Executed (withHop q req resp ds t) := by
  rw [Executed, replies_withHop, executions_withHop, List.flatMap_cons, List.map_append, h, List.map_map]
  exact congrArg (· ++ _) hcalls

theorem Ending.after_hop (h : Ending registry cfg hops (toolHistory ++ ds.map executionOf) t r)
    (hcalls : ds.map Prod.fst = resp.toolCalls) (hsome : resp.toolCalls ≠ []) (hprovider : registry.providers ≠ [])
    (hdispatcher : cfg.hasDispatcher = true) :
    Ending registry cfg (hops + 1) toolHistory (withHop q req resp ds t) r := by
  have hlast : ∀ {x}, (replies t).getLast? = some x → (replies (withHop q req resp ds t)).getLast? = some x := by
    intro x hx
    rw [replies_withHop, List.getLast?_cons, hx]
    rfl
  have hcalling : ∀ {x}, (replies t).getLast? = some x → AllCalling (replies t).dropLast →
      AllCalling (replies (withHop q req resp ds t)).dropLast := by
    intro x hx h
    rw [replies_withHop, List.dropLast_cons_of_ne_nil (by rintro hnil; rw [hnil] at hx; cases hx)]
    exact List.forall_mem_cons.mpr ⟨hsome, h⟩
  cases h with
  | answered hresp hnone hall hdone hhistory =>
      refine .answered (hlast hresp) hnone (hcalling hresp hall) (hdone.after_hop hcalls) ?_
      rw [hhistory, executions_withHop, List.append_assoc]
  | failed hresp hall hdone => exact .failed (hlast hresp) (hcalling hresp hall) (hdone.after_hop hcalls)
  | unregistered hnone _ => exact absurd hnone hprovider
  | undispatched hnone _ _ _ => exact absurd (hnone.symm.trans hdispatcher) Bool.false_ne_true
  | limit hlength hall hdone =>
      refine .limit ?_ ?_ (hdone.after_hop hcalls)
      · rw [replies_withHop, List.length_cons, hlength]
      · rw [replies_withHop]
        exact List.forall_mem_cons.mpr ⟨hsome, hall⟩

end Hop

theorem primary_ok {p : P} (h : registry.primary = .ok p) : registry.providers ≠ [] := by
  intro hnone
  rw [Registry.primary, hnone] at h
  cases h

theorem primary_error {err : String} (h : registry.primary = .error err) :
    registry.providers = [] ∧ err = errNoProviders := by
  unfold Registry.primary at h
  split at h
  · exact ⟨‹_›, (Except.error.inj h).symm⟩
  · cases h

theorem hopLoop_ending (hr : Run Program.Step (hopLoop registry cfg hops turns toolHistory) t (.ret r)) :
    (replies t).length ≤ hops ∧ Ending registry cfg hops toolHistory t r := by
  induction hops generalizing turns toolHistory t with
  | zero =>
      obtain ⟨rfl, rfl⟩ := Program.run_ret rfl hr
      exact ⟨Nat.le_refl 0, .limit rfl allCalling_nil rfl⟩
  | succ hops ih =>
      cases hp : registry.primary with
      | error err =>
          obtain ⟨hnone, rfl⟩ := primary_error hp
          obtain ⟨rfl, rfl⟩ := Program.run_ret (hopLoop_no_provider hp) hr
          exact ⟨Nat.zero_le _, .unregistered hnone rfl⟩
      | ok q =>
          obtain ⟨answer, t₁, rfl, hnext⟩ := Program.run_call _ (hopLoop_succ hp) hr
          cases answer with
          | error err =>
              obtain ⟨rfl, rfl⟩ := Program.run_ret rfl hnext
              exact ⟨Nat.succ_le_succ (Nat.zero_le hops), .failed rfl allCalling_nil rfl⟩
          | ok resp =>
              by_cases hcalls : resp.toolCalls.isEmpty
              · rw [afterChat, if_pos hcalls] at hnext
                obtain ⟨rfl, rfl⟩ := Program.run_ret rfl hnext
                have hnone := List.isEmpty_iff.mp hcalls
                refine ⟨Nat.succ_le_succ (Nat.zero_le hops), ?_⟩
                refine .answered rfl hnone allCalling_nil ?_ (List.append_nil _).symm
                show [] = resp.toolCalls ++ []
                rw [hnone]
                rfl
              · rw [afterChat, if_neg hcalls] at hnext
                rcases dispatchCalls_run resp.toolCalls hnext with
                  ⟨ds, t₂, rfl, hds, hd, hrest⟩ | ⟨hd, call, hcall, hrest⟩
                · obtain ⟨hlength, hending⟩ := ih hrest
                  have hsome : resp.toolCalls ≠ [] := fun hnone => hcalls (List.isEmpty_iff.mpr hnone)
                  refine ⟨?_, hending.after_hop hds hsome (primary_ok hp) (hd.resolve_left hsome)⟩
                  show (replies (withHop q _ resp ds t₂)).length ≤ hops + 1
                  rw [replies_withHop]
                  exact Nat.succ_le_succ hlength
                · obtain ⟨rfl, rfl⟩ := Program.run_ret rfl hrest
                  exact ⟨Nat.succ_le_succ (Nat.zero_le hops), .undispatched hd rfl hcall rfl⟩

end Gopkg.Ai.Orchestrator
