import Mathlib.Data.List.TakeWhile
import Gopkg.Ai.Geminitext

/-!
# The shape of the contents

The calls of a run of tool turns are in one content, and their responses in the next. Nothing is lost, doubled or moved.
-/

namespace Gopkg.Ai.Geminitext

open Llm

variable {V D : Type} {h pre run post : List (ChatTurn V)} {turn : ChatTurn V}
  {out out' : List (GeminiContent V)}

/-! ## Cutting a history -/

theorem historyContents_cons_tool (hturn : isTool turn = true) : historyContents (turn :: h) =
    runContents (turn :: h.takeWhile isTool) ++ historyContents (h.dropWhile isTool) := by
  rw [historyContents, if_pos hturn]

theorem historyContents_cons_text (hturn : isTool turn = false) : historyContents (turn :: h) =
    turnContents turn ++ historyContents h := by
  rw [historyContents, if_neg (by rw [hturn]; exact Bool.false_ne_true)]

/-- The run of tool turns at the front does not reach over the cut. -/
theorem span_cut_before (pre : List (ChatTurn V)) (hpost : ∀ turn ∈ post.head?, isTool turn = false) :
    (pre ++ post).takeWhile isTool = pre.takeWhile isTool ∧
      (pre ++ post).dropWhile isTool = pre.dropWhile isTool ++ post := by
  induction pre with
  | nil =>
      cases post with
      | nil => exact ⟨rfl, rfl⟩
      | cons turn post =>
          have hturn : isTool turn = false := hpost turn rfl
          simp [hturn]
  | cons turn pre ih =>
      cases hturn : isTool turn with
      | true => simp [hturn, ih]
      | false => simp [hturn]

/-- A history can be cut before a turn that is no tool turn. -/
theorem historyContents_cut_before (hpost : ∀ turn ∈ post.head?, isTool turn = false) :
    historyContents (pre ++ post) = historyContents pre ++ historyContents post := by
  induction pre using historyContents.induct with
  | case1 => simp [historyContents]
  | case2 turn pre hturn ih =>
      obtain ⟨htake, hdrop⟩ := span_cut_before pre hpost
      rw [List.cons_append, historyContents_cons_tool hturn, historyContents_cons_tool hturn, htake, hdrop, ih,
        List.append_assoc]
  | case3 turn pre hturn ih =>
      rw [Bool.not_eq_true] at hturn
      rw [List.cons_append, historyContents_cons_text hturn, historyContents_cons_text hturn, ih, List.append_assoc]

/-- And after one. -/
theorem historyContents_cut_after (hpre : ∀ turn ∈ pre.getLast?, isTool turn = false) :
    historyContents (pre ++ post) = historyContents pre ++ historyContents post := by
  rcases List.eq_nil_or_concat pre with rfl | ⟨pre, turn, rfl⟩
  · simp [historyContents]
  · rw [List.concat_eq_append] at hpre ⊢
    have hturn : isTool turn = false := hpre turn (by simp)
    have hcut : ∀ post : List (ChatTurn V), historyContents (pre ++ turn :: post) =
        historyContents pre ++ (turnContents turn ++ historyContents post) := by
      intro post
      rw [historyContents_cut_before (by simpa using hturn), historyContents_cons_text hturn]
    rw [List.append_assoc, List.singleton_append, hcut, hcut, historyContents, List.append_nil, List.append_assoc]

/-- The tool turns of `run` come one after the other, and there are none right before or after them. -/
structure MaximalRun (pre run post : List (ChatTurn V)) : Prop where
  ne_nil : run ≠ []
  tools : ∀ turn ∈ run, isTool turn = true
  before : ∀ turn ∈ pre.getLast?, isTool turn = false
  after : ∀ turn ∈ post.head?, isTool turn = false

theorem historyContents_tools (htools : ∀ turn ∈ run, isTool turn = true) (hne : run ≠ []) :
    historyContents run = runContents run := by
  cases run with
  | nil => exact absurd rfl hne
  | cons turn run =>
      obtain ⟨hturn, hrest⟩ := List.forall_mem_cons.mp htools
      rw [historyContents_cons_tool hturn, List.takeWhile_eq_self_iff.mpr hrest, List.dropWhile_eq_nil_iff.mpr hrest,
        historyContents, List.append_nil]

theorem historyContents_run (hrun : MaximalRun pre run post) : historyContents (pre ++ run ++ post) =
    historyContents pre ++ runContents run ++ historyContents post := by
  rw [historyContents_cut_before hrun.after, historyContents_cut_after hrun.before,
    historyContents_tools hrun.tools hrun.ne_nil]

/-! ## Calls and responses -/

/-- The calls of a content: their names, arguments and thought signatures. -/
def GeminiContent.calls (c : GeminiContent V) : List (String × Fields V × String) :=
  c.parts.filterMap fun p => p.functionCall.map fun call => (call.name, call.args, p.thoughtSignature)

/-- The names of the responses of a content. -/
def GeminiContent.responses (c : GeminiContent V) : List String :=
  c.parts.filterMap fun p => p.functionResponse.map GeminiFunctionResponse.name

def GeminiContent.isText (c : GeminiContent V) : Bool := c.calls.isEmpty && c.responses.isEmpty

/-- What a tool turn is rendered from. -/
def toolCall (turn : ChatTurn V) : String × Fields V × String := (turn.toolName, turn.toolArgs, turn.toolSig)

def textContent (turn : ChatTurn V) : GeminiContent V :=
  { role := if turn.role = "assistant" then "model" else "user", parts := [{ text := turn.text }] }

theorem calls_callParts (run : List (ChatTurn V)) (role : String) :
    GeminiContent.calls ⟨role, run.map callPart⟩ = run.map toolCall := by
  rw [GeminiContent.calls, List.filterMap_map, ← List.filterMap_eq_map]
  rfl

theorem calls_respParts (run : List (ChatTurn V)) (role : String) :
    GeminiContent.calls ⟨role, run.map respPart⟩ = [] := by
  rw [GeminiContent.calls, List.filterMap_map]
  exact List.filterMap_eq_nil_iff.mpr fun _ _ => rfl

theorem responses_respParts (run : List (ChatTurn V)) (role : String) :
    GeminiContent.responses ⟨role, run.map respPart⟩ = run.map ChatTurn.toolName := by
  rw [GeminiContent.responses, List.filterMap_map, ← List.filterMap_eq_map]
  rfl

theorem turnContents_text (hturn : isTool turn = false) : turnContents turn = [textContent turn] := by
  have hrole : ¬ turn.role = "tool" := by simpa [isTool] using hturn
  rw [turnContents, if_neg hrole]
  rfl

/-- A content with calls comes from the model, and the next content is the user's, with a response for each of them. -/
def Paired (out : List (GeminiContent V)) : Prop := ∀ pre c post, out = pre ++ c :: post → c.calls ≠ [] →
  c.role = "model" ∧ ∃ d post', post = d :: post' ∧ d.role = "user" ∧ d.responses = c.calls.map Prod.fst

theorem Paired.nil : Paired ([] : List (GeminiContent V)) := by
  intro pre c post hsplit
  simp at hsplit

theorem Paired.append (h : Paired out) (h' : Paired out') : Paired (out ++ out') := by
  intro pre c post hsplit hcalls
  rcases List.append_eq_append_iff.mp hsplit with ⟨mid, rfl, hout'⟩ | ⟨mid, hout, hpost⟩
  · exact h' mid c post hout' hcalls
  · cases mid with
    | nil => exact h' [] c post hpost.symm hcalls
    | cons c' mid =>
        obtain ⟨rfl, rfl⟩ := List.cons.inj hpost
        obtain ⟨hrole, d, post', rfl, hnext⟩ := h pre c mid hout hcalls
        exact ⟨hrole, d, post' ++ out', rfl, hnext⟩

theorem paired_single {c : GeminiContent V} (hc : c.calls = []) : Paired [c] := by
  intro pre c' post hsplit hcalls
  obtain rfl : c' = c := by
    have hmem : c' ∈ [c] := by
      rw [hsplit]
      simp
    exact List.mem_singleton.mp hmem
  exact absurd hc hcalls

theorem paired_runContents (run : List (ChatTurn V)) : Paired (runContents run) := by
  intro pre c post hsplit hcalls
  cases pre with
  | nil =>
      cases hsplit
      refine ⟨rfl, _, [], rfl, rfl, ?_⟩
      rw [responses_respParts, calls_callParts, List.map_map]
      rfl
  | cons c' pre =>
      have hrest := (List.cons.inj hsplit).2
      exact paired_single (calls_respParts run "user") pre c post hrest hcalls

theorem paired_historyContents (h : List (ChatTurn V)) : Paired (historyContents h) := by
  induction h using historyContents.induct with
  | case1 =>
      rw [historyContents]
      exact .nil
  | case2 turn h hturn ih =>
      rw [historyContents_cons_tool hturn]
      exact (paired_runContents _).append ih
  | case3 turn h hturn ih =>
      rw [Bool.not_eq_true] at hturn
      rw [historyContents_cons_text hturn, turnContents_text hturn]
      exact (paired_single rfl).append ih

theorem filter_span (f : ChatTurn V → Bool) (h : List (ChatTurn V)) :
    h.filter f = (h.takeWhile isTool).filter f ++ (h.dropWhile isTool).filter f := by
  rw [← List.filter_append, List.takeWhile_append_dropWhile]

/-- The tool turns in front are taken together. -/
theorem filter_isTool_cons (hturn : isTool turn = true) : (turn :: h).filter isTool =
    turn :: h.takeWhile isTool ++ (h.dropWhile isTool).filter isTool := by
  have hrun : (h.takeWhile isTool).filter isTool = h.takeWhile isTool :=
    List.filter_eq_self.mpr fun turn hmem => List.mem_takeWhile_imp hmem
  rw [List.filter_cons_of_pos hturn, filter_span isTool h, hrun, List.cons_append]

theorem calls_historyContents (h : List (ChatTurn V)) :
    (historyContents h).flatMap GeminiContent.calls = (h.filter isTool).map toolCall := by
  induction h using historyContents.induct with
  | case1 => simp [historyContents]
  | case2 turn h hturn ih =>
      rw [historyContents_cons_tool hturn, List.flatMap_append, ih, filter_isTool_cons hturn, List.map_append,
        runContents, List.flatMap_cons, List.flatMap_cons, calls_callParts, calls_respParts, List.flatMap_nil,
        List.append_nil, List.append_nil]
  | case3 turn h hturn ih =>
      rw [List.filter_cons_of_neg hturn]
      rw [Bool.not_eq_true] at hturn
      rw [historyContents_cons_text hturn, turnContents_text hturn, List.flatMap_append, ih]
      rfl

theorem filter_isText_runContents (hrun : run ≠ []) : (runContents run).filter GeminiContent.isText = [] := by
  refine List.filter_eq_nil_iff.mpr fun c hc htext => ?_
  obtain ⟨hcalls, hresponses⟩ : c.calls = [] ∧ c.responses = [] := by
    simpa [GeminiContent.isText] using htext
  rw [runContents, List.mem_cons, List.mem_singleton] at hc
  rcases hc with rfl | rfl
  · rw [calls_callParts, List.map_eq_nil_iff] at hcalls
    exact hrun hcalls
  · rw [responses_respParts, List.map_eq_nil_iff] at hresponses
    exact hrun hresponses

theorem texts_historyContents (h : List (ChatTurn V)) :
    (historyContents h).filter GeminiContent.isText = (h.filter (!isTool ·)).map textContent := by
  induction h using historyContents.induct with
  | case1 => simp [historyContents]
  | case2 turn h hturn ih =>
      have hnone : (h.takeWhile isTool).filter (!isTool ·) = [] :=
        List.filter_eq_nil_iff.mpr fun turn hmem => by simp [List.mem_takeWhile_imp hmem]
      rw [historyContents_cons_tool hturn, List.filter_append, filter_isText_runContents (List.cons_ne_nil _ _),
        List.nil_append, ih, List.filter_cons_of_neg (by simp [hturn]), filter_span (!isTool ·) h, hnone,
        List.nil_append]
  | case3 turn h hturn ih =>
      rw [Bool.not_eq_true] at hturn
      have hkept : (turn :: h).filter (!isTool ·) = turn :: h.filter (!isTool ·) :=
        List.filter_cons_of_pos (by simp [hturn])
      rw [historyContents_cons_text hturn, turnContents_text hturn, List.filter_append, ih, hkept]
      rfl

/-! ## The text of the user -/

/-- What the text of the user adds. -/
def userContents (req : ChatRequest V D) : List (GeminiContent V) :=
  if req.userText ≠ "" then [{ role := "user", parts := [{ text := req.userText }] }] else []

theorem chatContents_eq (req : ChatRequest V D) :
    chatContents req = historyContents req.history ++ userContents req :=
  rfl

theorem userContents_ne_nil_iff {req : ChatRequest V D} : userContents req ≠ [] ↔ req.userText ≠ "" := by
  simp [userContents]

theorem userContents_eq (req : ChatRequest V D) : userContents req = [] ∨
    userContents req = [{ role := "user", parts := [{ text := req.userText }] }] := by
  rw [userContents]
  split
  · exact .inr rfl
  · exact .inl rfl

theorem paired_userContents (req : ChatRequest V D) : Paired (userContents req) := by
  rcases userContents_eq req with h | h <;> rw [h]
  · exact .nil
  · exact paired_single rfl

theorem calls_userContents (req : ChatRequest V D) : (userContents req).flatMap GeminiContent.calls = [] := by
  rcases userContents_eq req with h | h <;> rw [h] <;> rfl

theorem filter_isText_userContents (req : ChatRequest V D) :
    (userContents req).filter GeminiContent.isText = userContents req := by
  rcases userContents_eq req with h | h <;> rw [h] <;> rfl

end Gopkg.Ai.Geminitext
