import Gopkg.Ai.Lemmas.Outcome
import Gopkg.Ai.Lemmas.Reads

/-!
# Theorems about conversations with a model
-/

namespace Gopkg.Ai

open Lts

/-! ## History -/

namespace Conversation

variable {A Data : Type} {c : Codec A Data} {t : List (Event A)} {w : World A Data}

/-- No message is lost where every `SET` finds what its `GET` found: when all calls have returned without an error,
the history is the last of their messages, in an order that calls which did not overlap agree with. A message that had
no time has got one. -/
theorem history_keeps_messages (hr : Run (Restrict (Step c) Current) World.init t w)
    (hdone : ∀ p ∈ w.calls, p = .returned none) : ∃ order : List (Nat × Message A),
      (order.map Prod.fst).Perm (List.range w.calls.length) ∧
      (∀ p ∈ order, ∃ msg time, .invoked p.1 msg ∈ t ∧ p.2 = { msg with timestamp := some time } ∧
        ∀ given ∈ msg.timestamp, time = given) ∧
      (∀ i j msg, [.returned i none, .invoked j msg].Sublist t → [i, j].Sublist (order.map Prod.fst)) ∧
      ∃ msgs, c.get (.ok w.store) = .ok msgs ∧ msgs.length = min 20 w.calls.length ∧
        msgs = (order.map Prod.snd).drop (w.calls.length - 20) := by
  have h := Recorded.run hr
  have hperm := h.perm hdone
  have hlen : ((stored t).map Prod.snd).length = w.calls.length := by
    have := hperm.length_eq
    rwa [List.length_map, List.length_range, ← List.length_map] at this
  refine ⟨stored t, hperm, h.gives, fun i j msg hsub => h.ordered i j msg hsub ?_, _, h.holds, ?_, ?_⟩
  · exact hperm.mem_iff.mpr (List.mem_range.mpr (h.invoked j msg (hsub.subset (by simp))))
  · rw [length_window, hlen]
    rfl
  · rw [window_eq_drop, hlen]
    rfl

/-- A codec that stores the messages as they are. -/
def plain : Codec Unit (List (Message Unit)) where
  marshal := .ok
  unmarshal := .ok
  unmarshal_marshal h := h.symm

def userSaid (content : String) : Message Unit := ⟨"user", "chat", content, none, "", none⟩

theorem current_set {w' : World A Data} {i : Nat} {msg : Message A} {data : Data}
    (h : w.calls[i]? = some (.setting w.store msg data)) : Current w [.stored i msg, .returned i none] w' := by
  intro j m hmem
  obtain ⟨rfl, rfl⟩ : j = i ∧ m = msg := by simpa using hmem
  exact ⟨data, h⟩

/-- One call after the other: both messages are there. -/
theorem history_keeps_messages_in_turn : ∃ (t : List (Event Unit)) (w : World Unit (List (Message Unit))),
    Run (Restrict (Step plain) Current) World.init t w ∧
      plain.get (.ok w.store) = .ok [(userSaid "a").stamped 1, (userSaid "b").stamped 2] ∧
      ∃ order : List (Nat × Message Unit), (order.map Prod.fst).Perm (List.range w.calls.length) ∧
        (∀ p ∈ order, ∃ msg time, .invoked p.1 msg ∈ t ∧ p.2 = { msg with timestamp := some time } ∧
          ∀ given ∈ msg.timestamp, time = given) ∧
        (∀ i j msg, [.returned i none, .invoked j msg].Sublist t → [i, j].Sublist (order.map Prod.fst)) ∧
        ∃ msgs, plain.get (.ok w.store) = .ok msgs ∧ msgs.length = min 20 w.calls.length ∧
          msgs = (order.map Prod.snd).drop (w.calls.length - 20) := by
  have h₁ : Run (Restrict (Step plain) Current) World.init _ _ := .single ⟨.C_Append (userSaid "a"), by simp [Current]⟩
  have h₂ := h₁.snoc ⟨.C_Get (i := 0) 1 rfl rfl, by simp [Current]⟩
  have h₃ := h₂.snoc ⟨.C_Set (i := 0) rfl, current_set rfl⟩
  have h₄ := h₃.snoc ⟨.C_Append (userSaid "b"), by simp [Current]⟩
  have h₅ := h₄.snoc ⟨.C_Get (i := 1) 2 rfl rfl, by simp [Current]⟩
  have h₆ := h₅.snoc ⟨.C_Set (i := 1) rfl, current_set rfl⟩
  have hdone : ∀ p ∈ [Place.returned none, .returned none],
      p = (.returned none : Place Unit (List (Message Unit))) := by
    simp
  exact ⟨_, _, h₆, rfl, history_keeps_messages h₆ hdone⟩

/-- Both calls read before either writes: both return without an error, and one message is gone. -/
theorem overlapping_appends_lose_message : ∃ (t : List (Event Unit)) (w : World Unit (List (Message Unit))),
    Run (Step plain) World.init t w ∧ w.calls = [.returned none, .returned none] ∧
      t = [.invoked 0 (userSaid "a"), .invoked 1 (userSaid "b"), .stored 0 ((userSaid "a").stamped 1), .returned 0 none,
        .stored 1 ((userSaid "b").stamped 2), .returned 1 none] ∧
      plain.get (.ok w.store) = .ok [(userSaid "b").stamped 2] := by
  have h₁ : Run (Step plain) World.init _ _ := .single (.C_Append (userSaid "a"))
  have h₂ := h₁.snoc (.C_Append (userSaid "b"))
  have h₃ := h₂.snoc (.C_Get (i := 0) 1 rfl rfl)
  have h₄ := h₃.snoc (.C_Get (i := 1) 2 rfl rfl)
  have h₅ := h₄.snoc (.C_Set (i := 0) rfl)
  have h₆ := h₅.snoc (.C_Set (i := 1) rfl)
  exact ⟨_, _, h₆, rfl, rfl, rfl⟩

/-- However `Append`, `Clear` and the expiry of the key interleave, `Recent` returns messages that were given to calls
of `Append`, no two of one call, in the order of their `SET`s and with the last one at the end: 20 at most, and `n` at
most. -/
theorem recent_in_order (hr : Run (KeyStep c) World.init t w) (n : Int) : ∃ kept : List (Nat × Message A),
    c.recent n (.ok w.store) = .ok (kept.map Prod.snd) ∧ kept.Sublist (stored t) ∧ (kept.map Prod.fst).Nodup ∧
      (∀ p ∈ kept, ∃ msg time, .invoked p.1 msg ∈ t ∧ p.2 = { msg with timestamp := some time } ∧
        ∀ given ∈ msg.timestamp, time = given) ∧
      (kept ≠ [] → kept.getLast? = (stored t).getLast?) ∧ kept.length ≤ 20 ∧ (0 < n → kept.length ≤ n) := by
  have h := Selected.run hr
  obtain ⟨all, ⟨hget, hall⟩, hmax, hlast⟩ := h.holds
  obtain ⟨k, hk, hrecent, _, hn⟩ := recent_of_get hget n
  obtain ⟨hsub, hend⟩ := lasts_of_drop all hk
  have hkept : (all.drop k).Sublist (stored t) := hsub.trans hall
  have hlength : (all.drop k).length = all.length - k := List.length_drop
  refine ⟨all.drop k, hrecent, hkept, h.nodup.sublist (hkept.map _), fun p hp => h.gives p (hkept.subset hp), ?_,
    ?_, ?_⟩
  · intro hne
    rw [hend]
    refine hlast fun hnil => hne ?_
    rw [hnil, List.drop_nil]
  · exact Nat.le_trans (hlength ▸ Nat.sub_le _ _) hmax
  · rw [hlength]
    intro hpos
    have := hn hpos
    by_cases hnil : all = []
    · rw [hnil, List.length_nil]
      omega
    · have := hk hnil
      omega

/-- Two calls overlap, and a third one comes after them. -/
theorem recent_in_order_overlapping : ∃ (t : List (Event Unit)) (w : World Unit (List (Message Unit))),
    Run (KeyStep plain) World.init t w ∧
      plain.recent 0 (.ok w.store) = .ok [(userSaid "b").stamped 2, (userSaid "c").stamped 3] ∧
      ∃ kept : List (Nat × Message Unit), plain.recent 1 (.ok w.store) = .ok (kept.map Prod.snd) ∧
        kept.Sublist (stored t) ∧ kept.length ≤ 1 := by
  have h₁ : Run (KeyStep plain) World.init _ _ := .single (.append (.C_Append (userSaid "a")))
  have h₂ := h₁.snoc (.append (.C_Append (userSaid "b")))
  have h₃ := h₂.snoc (.append (.C_Get (i := 0) 1 rfl rfl))
  have h₄ := h₃.snoc (.append (.C_Get (i := 1) 2 rfl rfl))
  have h₅ := h₄.snoc (.append (.C_Set (i := 0) rfl))
  have h₆ := h₅.snoc (.append (.C_Set (i := 1) rfl))
  have h₇ := h₆.snoc (.append (.C_Append (userSaid "c")))
  have h₈ := h₇.snoc (.append (.C_Get (i := 2) 3 rfl rfl))
  have h₉ := h₈.snoc (.append (.C_Set (i := 2) rfl))
  obtain ⟨kept, hread, hsub, _, _, _, _, hn⟩ := recent_in_order h₉ 1
  exact ⟨_, _, h₉, rfl, kept, hread, hsub, by have := hn (by decide); omega⟩

end Conversation

/-! ## Contents -/

namespace Geminitext

open Llm

variable {V D : Type}

/-- Each content with calls comes before the content with their responses, each tool turn is in one of them with those
of its run, and the other turns are there between them, with the text of the user at the end. -/
theorem chatContents_well_formed (req : ChatRequest V D) :
    Paired (chatContents req) ∧
      (chatContents req).flatMap GeminiContent.calls = (req.history.filter isTool).map toolCall ∧
      (∀ pre run post, req.history = pre ++ run ++ post → MaximalRun pre run post →
        chatContents req = historyContents pre ++ [⟨"model", run.map callPart⟩, ⟨"user", run.map respPart⟩] ++
          historyContents post ++ userContents req) ∧
      (chatContents req).filter GeminiContent.isText =
        (req.history.filter (!isTool ·)).map textContent ++ userContents req ∧
      chatContents req = historyContents req.history ++ userContents req ∧
      (userContents req ≠ [] ↔ req.userText ≠ "") := by
  refine ⟨(paired_historyContents _).append (paired_userContents req), ?_, ?_, ?_, rfl, userContents_ne_nil_iff⟩
  · rw [chatContents_eq, List.flatMap_append, calls_historyContents, calls_userContents, List.append_nil]
  · intro pre run post hsplit hrun
    rw [chatContents_eq, hsplit, historyContents_run hrun]
    rfl
  · rw [chatContents_eq, List.filter_append, texts_historyContents, filter_isText_userContents]

end Geminitext

/-! ## Tool loop -/

namespace Orchestrator

open Llm Geminitext

variable {P V D : Type} {registry : Registry P} {cfg : Config V D} {userText : String}
  {p : Call P V D (Except String (Result V))}

/-- From one hop to the next the contents that Gemini is sent grow by the calls of the hop and their responses if and
only if it is the first hop. After that the new calls join those of the hops before, in the same two contents. -/
theorem transcript_extends_iff {t₁ t₂ : List (Exchange P V D)} {q q' : P} {req req' : ChatRequest V D}
    {resp : ChatResponse V} {answer : Except String (ChatResponse V)}
    {ds : List (ToolCall V × Option V × Option String)}
    (hr : Run Program.Step (process registry cfg userText)
      (t₁ ++ ⟨.chat q req, .ok resp⟩ :: (ds.map dispatched ++ ⟨.chat q' req', answer⟩ :: t₂)) p) :
    ds.map Prod.fst = resp.toolCalls ∧
      (chatContents req' = chatContents req ++ [callsContent resp.toolCalls, responsesContent ds] ↔ t₁ = []) := by
  have hdue := Due.run hr
  obtain ⟨howed, _, _⟩ := hdue t₁ _ _ rfl
  obtain ⟨hhist, htext, hcalls, hne, hhist', htext'⟩ := Due.hop hdue
  refine ⟨hcalls, ?_⟩
  have hbase : ∀ turn ∈ (startTurns cfg.withDefaults userText).getLast?, isTool turn = false :=
    fun turn hturn => isTool_startTurns _ _ turn (List.mem_of_getLast? hturn)
  have htools := isTool_toolTurns (t₁ ++ ds.map (dispatched (P := P) (D := D)))
  have hnew : toolTurns (t₁ ++ ds.map (dispatched (P := P) (D := D))) ≠ [] := by
    rw [toolTurns_append, toolTurns_dispatched]
    refine List.append_ne_nil_of_right_ne_nil _ (mt List.map_eq_nil_iff.mp fun hds => hne ?_)
    rw [← hcalls, hds]
    rfl
  rw [hhist, List.append_assoc, ← toolTurns_dispatched (P := P) (D := D), ← toolTurns_append] at hhist'
  rw [chatContents_of_no_text htext, chatContents_of_no_text htext', hhist, hhist', historyContents_cut_after hbase,
    historyContents_cut_after hbase, historyContents_tools htools hnew]
  constructor
  · intro heq
    by_contra hlate
    -- both requests end with the two contents of one run of tool turns
    rw [historyContents_tools (isTool_toolTurns t₁) (toolTurns_ne_nil howed hlate)] at heq
    have hlen := congrArg List.length heq
    simp only [runContents, List.length_append, List.length_cons, List.length_nil] at hlen
    omega
  · rintro rfl
    rw [List.nil_append, toolTurns_dispatched, runContents_toolTurns, hcalls]
    simp [toolTurns, historyContents]

/-! A model that searches twice before it replies. -/

def searchRegistry : Registry Unit := { providers := [()] }

def searchConfig : Config String Unit := ⟨"", [], "", [], 0, true, fun c => decide (' ' ≤ c ∧ c ≤ '~')⟩

def searchCall (query : String) : ToolCall String := ⟨"search", "search", [("query", query)], "sig-" ++ query⟩

def searchFor (query : String) : ChatResponse String := ⟨"", [searchCall query], "tool_call"⟩

def reply : ChatResponse String := ⟨"I found one", [], "stop"⟩

/-- One search and the reply. -/
theorem transcript_extends_iff_first : ∃ (req req' : ChatRequest String Unit)
    (p : Call Unit String Unit (Except String (Result String))),
    Run Program.Step (process searchRegistry searchConfig "find a mug")
      ([] ++ ⟨.chat () req, .ok (searchFor "mug")⟩ ::
        ([(searchCall "mug", some "none", none)].map dispatched ++ ⟨.chat () req', .ok reply⟩ :: [])) p ∧
      chatContents req' = chatContents req ++
        [callsContent (searchFor "mug").toolCalls, responsesContent [(searchCall "mug", some "none", none)]] := by
  have h₁ : Run Program.Step (process searchRegistry searchConfig "find a mug") _ _ :=
    .single (.of_call rfl (.ok (searchFor "mug")))
  have h₂ := h₁.snoc (.of_call rfl (some "none", none))
  have h₃ := h₂.snoc (.of_call rfl (.ok reply))
  exact ⟨_, _, _, h₃, (transcript_extends_iff h₃).2.mpr rfl⟩

/-- The second search: both requests end with one content of calls and one of responses. -/
theorem second_hop_merged : ∃ (req₀ req req' : ChatRequest String Unit)
    (p : Call Unit String Unit (Except String (Result String))),
    Run Program.Step (process searchRegistry searchConfig "find a mug")
      ([⟨.chat () req₀, .ok (searchFor "mug")⟩, dispatched (searchCall "mug", some "none", none),
        ⟨.chat () req, .ok (searchFor "cup")⟩, dispatched (searchCall "cup", some "one", none),
        ⟨.chat () req', .ok reply⟩]) p ∧
      chatContents req' ≠ chatContents req ++
        [callsContent (searchFor "cup").toolCalls, responsesContent [(searchCall "cup", some "one", none)]] := by
  have h₁ : Run Program.Step (process searchRegistry searchConfig "find a mug") _ _ :=
    .single (.of_call rfl (.ok (searchFor "mug")))
  have h₂ := h₁.snoc (.of_call rfl (some "none", none))
  have h₃ := h₂.snoc (.of_call rfl (.ok (searchFor "cup")))
  have h₄ := h₃.snoc (.of_call rfl (some "one", none))
  have h₅ := h₄.snoc (.of_call rfl (.ok reply))
  refine ⟨_, _, _, _, h₅, fun heq => ?_⟩
  have hlen := congrArg List.length heq
  simp [chatContents, historyContents, runContents, startTurns, messagesToTurns, isTool, toolTurn, turnContents,
    Config.withDefaults, searchConfig] at hlen

/-- The model is never told that a tool has failed: after an error it is asked what it would have been asked without
it. -/
theorem tool_error_not_sent {t₁ t₂ : List (Exchange P V D)} {call : ToolCall V} {result : Option V} {err : String}
    {q : P} {req : ChatRequest V D} {answer : Except String (ChatResponse V)}
    (hr : Run Program.Step (process registry cfg userText)
      (t₁ ++ ⟨.dispatch call, (result, some err)⟩ :: (t₂ ++ [⟨.chat q req, answer⟩])) p) :
    (∃ p', Run Program.Step (process registry cfg userText)
      (t₁ ++ ⟨.dispatch call, (result, none)⟩ :: (t₂ ++ [⟨.chat q req, answer⟩])) p') ∧
      ∀ q' req' answer' p', Run Program.Step (process registry cfg userText)
        (t₁ ++ ⟨.dispatch call, (result, none)⟩ :: (t₂ ++ [⟨.chat q' req', answer'⟩])) p' → q' = q ∧ req' = req := by
  have halike := process_alike registry cfg userText
  constructor
  · obtain ⟨p', hr', _⟩ := halike.run hr (alike_of_error t₁ _ call result (some err) none)
    exact ⟨p', hr'⟩
  · intro q' req' answer' p' hr'
    rw [← List.cons_append, ← List.append_assoc] at hr hr'
    cases halike.next_op hr hr' (alike_of_error t₁ t₂ call result (some err) none)
    exact ⟨rfl, rfl⟩

def askedFirst : ChatRequest String Unit := ⟨"", startTurns searchConfig "find a mug", "", [], ""⟩

def askedAfterNoResult : ChatRequest String Unit :=
  ⟨"", startTurns searchConfig "find a mug" ++ [toolTurn (searchCall "mug") none], "", [], ""⟩

/-- A search without a result, and perhaps with an error. -/
theorem search_run (err : Option String) : ∃ p, Run Program.Step (process searchRegistry searchConfig "find a mug")
    [⟨.chat () askedFirst, .ok (searchFor "mug")⟩, dispatched (searchCall "mug", none, err),
      ⟨.chat () askedAfterNoResult, .ok reply⟩] p := by
  have h₁ : Run Program.Step (process searchRegistry searchConfig "find a mug") _ _ :=
    .single (.of_call rfl (.ok (searchFor "mug")))
  have h₂ := h₁.snoc (.of_call rfl (none, err))
  have h₃ := h₂.snoc (.of_call rfl (.ok reply))
  exact ⟨_, h₃⟩

/-- After a timeout: whatever the model is asked after an empty result, it is what it is asked after the timeout. -/
theorem tool_error_not_sent_timeout : ∃ p, Run Program.Step (process searchRegistry searchConfig "find a mug")
    ([⟨.chat () askedFirst, .ok (searchFor "mug")⟩] ++ ⟨.dispatch (searchCall "mug"), (none, some "timeout")⟩ ::
      ([] ++ [⟨.chat () askedAfterNoResult, .ok reply⟩])) p ∧
    ∀ q' req' answer' p', Run Program.Step (process searchRegistry searchConfig "find a mug")
      ([⟨.chat () askedFirst, .ok (searchFor "mug")⟩] ++ ⟨.dispatch (searchCall "mug"), (none, none)⟩ ::
        ([] ++ [⟨.chat q' req', answer'⟩])) p' → q' = () ∧ req' = askedAfterNoResult := by
  obtain ⟨p, hr⟩ := search_run (some "timeout")
  exact ⟨p, hr, (tool_error_not_sent hr).2⟩

/-- A search that failed and one that found nothing: the model is asked the same. -/
theorem failed_search_looks_empty :
    (∃ p, Run Program.Step (process searchRegistry searchConfig "find a mug")
      [⟨.chat () askedFirst, .ok (searchFor "mug")⟩, dispatched (searchCall "mug", none, some "timeout"),
        ⟨.chat () askedAfterNoResult, .ok reply⟩] p) ∧
    ∃ p, Run Program.Step (process searchRegistry searchConfig "find a mug")
      [⟨.chat () askedFirst, .ok (searchFor "mug")⟩, dispatched (searchCall "mug", none, none),
        ⟨.chat () askedAfterNoResult, .ok reply⟩] p :=
  ⟨search_run (some "timeout"), search_run none⟩

/-- `Process` asks the model as often as there are hops at most. It returns the text of the first response that calls no
tool, with the execution of each call of the responses before it, once and in their order; or the error of the model, or
that of a call without a dispatcher, or that of the limit. -/
theorem process_ending {t : List (Exchange P V D)} {r : Except String (Result V)}
    (hr : Run Program.Step (process registry cfg userText) t (.ret r)) :
    let hops : Int := if cfg.maxToolHops ≤ 0 then 5 else cfg.maxToolHops
    (replies t).length ≤ hops ∧ Ending registry cfg.withDefaults hops.toNat [] t r := by
  have hhops : cfg.withDefaults.maxToolHops = if cfg.maxToolHops ≤ 0 then 5 else cfg.maxToolHops := by
    unfold Config.withDefaults
    split <;> rfl
  obtain ⟨hlength, hending⟩ := hopLoop_ending hr
  rw [hhops] at hlength hending
  refine ⟨?_, hending⟩
  split at hlength <;> split <;> omega

/-- One search, and the reply. -/
theorem process_ending_reply : ∃ (t : List (Exchange Unit String Unit)),
    Run Program.Step (process searchRegistry searchConfig "find a mug") t
      (.ret (.ok ⟨reply.text, [⟨searchCall "mug", some "none", none⟩], reply.finishReason⟩)) ∧
    Ending searchRegistry searchConfig.withDefaults 5 [] t
      (.ok ⟨reply.text, [⟨searchCall "mug", some "none", none⟩], reply.finishReason⟩) := by
  have h₁ : Run Program.Step (process searchRegistry searchConfig "find a mug") _ _ :=
    .single (.of_call rfl (.ok (searchFor "mug")))
  have h₂ := h₁.snoc (.of_call rfl (some "none", none))
  have h₃ := h₂.snoc (.of_call rfl (.ok reply))
  exact ⟨_, h₃, (process_ending h₃).2⟩

end Orchestrator

end Gopkg.Ai
