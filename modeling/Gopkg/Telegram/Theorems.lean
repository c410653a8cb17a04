import Gopkg.Telegram.Lemmas.Account
import Gopkg.Telegram.Lemmas.AddCredit
import Gopkg.Telegram.Lemmas.Desk
import Gopkg.Telegram.Lemmas.InFlight
import Gopkg.Telegram.Lemmas.Language
import Gopkg.Telegram.Lemmas.Ledger
import Gopkg.Telegram.Lemmas.Provenance
import Gopkg.Telegram.Lemmas.Question
import Gopkg.Telegram.Lemmas.Support

/-!
# Theorems about the bot

How often the gateway executes the deposit of one `/addcredit` conversation, what a reply of the AI does to the
conversation state, what becomes of the language that the user has chosen, what the user is told about a deposit, where
a question to the AI leads, what becomes of the active ticket of an agent, how the partners at the support desk are kept
apart, where the data of a deposit come from, and whose balance and bookings a user is shown.
-/

namespace Gopkg.Telegram

open Lts

/-- In a run of orderly steps every `/addcredit` conversation is paid at most once. -/
theorem deposits_at_most_once {F : Type} (h : HandlerSet F) (t : List (Event F)) (w : World F)
    (hr : Run (Restrict (Step h) Orderly) World.init t w) (f : Nat) : w.paid.count f ≤ 1 :=
  List.nodup_iff_count.mp (Ledger.run hr).once f

/-! ## Schedules of one conversation -/

/-- Whole amounts, and no support handler. -/
def wholeAmounts : HandlerSet Int where
  parseFloat s := if s = "100.00" ∨ s = "100" then (100, true) else (0, false)
  leZero x := decide (x ≤ 0)
  formatFixed2 x := toString x ++ ".00"
  toUpper s := String.ofList (s.toList.map Char.toUpper)
  partnerID := "partner"
  supported := false

def someSession : Session := { lang := "en", userID := "admin" }

/-- Every service answers, and without errors. -/
def answered (store : Option ConversationState) : (op : Op Int) → Ans op
  | .stateGet => .ok store
  | .stateSet _ | .stateClear => true
  | .getSession => .ok (some someSession)
  | .getValidToken => .ok ("token", some someSession)
  | .newUUID => "id"
  | .replyToTicket => false
  | .getCurrencyList _ => .ok []
  | .adminUpdateCurrency _ _ _ => .ok ()
  | .adminDeposit _ _ _ => .ok { success := true, transactionID := "tx", message := "" }
  | .askAI _ _ => .error .other

def goesOn (i n : Nat) : List (Act Int) := List.replicate n (.answer i true answered)

/-- The user starts the conversation and answers the first two questions, each after the reply. -/
def twoAnswers : List (Act Int) :=
  [.arrive .addcredit] ++ goesOn 0 2 ++ [.arrive (.text false "user-7")] ++ goesOn 0 4 ++
    [.arrive (.text false "100 usd")] ++ goesOn 0 4

/-- The note arrives, and its handler runs alone. -/
def onePayment : List (Act Int) := twoAnswers ++ [.arrive (.text false "-")] ++ goesOn 0 6

theorem onePayment_orderly :
    (exec (guarded (World.act wholeAmounts) Orderly) World.init onePayment).isSome := by decide

theorem deposits_at_most_once_onePayment :
    let w := (after (guarded (World.act wholeAmounts) Orderly) World.init onePayment).2
    w.paid = [0] ∧ w.procs.length = 0 ∧ w.paid.count 0 ≤ 1 :=
  ⟨by decide, by decide,
    deposits_at_most_once wholeAmounts _ _ (run_after (guarded_sound (act_sound wholeAmounts)) onePayment_orderly) 0⟩

/-- The note arrives twice. Both handlers read the state before the first one clears it. -/
def twoPayments : List (Act Int) :=
  twoAnswers ++ [.arrive (.text false "-"), .arrive (.text false "-")] ++ goesOn 0 2 ++ goesOn 1 2 ++
    goesOn 0 4 ++ goesOn 0 4

theorem deposited_twice : ¬ ∀ (F : Type) (h : HandlerSet F) (t : List (Event F)) (w : World F),
    Run (Step h) World.init t w → ∀ f, w.paid.count f ≤ 1 := by
  intro hall
  have hrun : (exec (World.act wholeAmounts) World.init twoPayments).isSome := by decide
  have hle := hall Int wholeAmounts _ _ (run_after (act_sound wholeAmounts) hrun) 0
  revert hle
  decide

/-- The gateway executes the deposit and the reply is lost. The user sends the note again. -/
def lostReply : List (Act Int) :=
  twoAnswers ++ [.arrive (.text false "-")] ++ goesOn 0 4 ++
    [.answer 0 true fun store op => match op with
      | .adminDeposit _ _ _ => .error .other
      | op => answered store op] ++
    [.arrive (.text false "-")] ++ goesOn 0 6

example : (after (World.act wholeAmounts) World.init lostReply).2.paid = [0, 0] := by decide

/-! ## Replies in flight -/

namespace InFlight

variable {F : Type} {h : HandlerSet F} {store found : Option ConversationState}
  {t evs : List (Task × (op : Op F) × Ans op)} {w w' : Pool Shared Task (Op F) Ans (Result F)}

/-- While every write of `HandleAIMessage` finds the state that it has read, no operation of it makes a conversation
appear, whether the user has cancelled or not, or changes the step or the other data of one. -/
theorem ai_message_undisturbed (hr : Run ((system h).restrict Current).Step ⟨.init store, []⟩ t w)
    (hs : ((system h).restrict Current).Step w evs w') {ev : (op : Op F) × Ans op} (hev : (.ai found, ev) ∈ evs) :
    Undisturbed w.shared.store w'.shared.store := by
  have hkept := System.Kept.run contract_closed meets_contract trivial hr
  exact (hkept.step contract_closed meets_contract hs).2 _ hev found rfl

/-- A conversation with the AI. -/
def aiState (convID : String) : ConversationState :=
  { command := .ai, step := 0, data := [("ai_conversation_id", convID)], flow := 0 }

def aiResponse : AIResponse := { success := true, conversationID := "d", responseMessage := "", suggestions := [] }

/-- A question and its reply. -/
theorem ai_message_undisturbed_reply :
    ∃ (t : List (Task × (op : Op Int) × Ans op)) (w : Pool Shared Task (Op Int) Ans (Result Int)),
      Run ((system wholeAmounts).restrict Current).Step ⟨.init (some (aiState "c")), []⟩ t w ∧
      w.shared.store = some (aiState "c") ∧
      ∃ evs w', ((system wholeAmounts).restrict Current).Step w evs w' ∧ w'.shared.store = some (aiState "d") ∧
        Undisturbed w.shared.store w'.shared.store := by
  have h₁ : Run ((system wholeAmounts).restrict Current).Step ⟨.init (some (aiState "c")), []⟩ _ _ :=
    .single (.S_Start ⟨rfl, rfl, .text false "hi", rfl⟩)
  have h₂ := h₁.snoc (.S_Act (i := 0) rfl (not_enter nofun) ⟨act_get _ _, current_of_eq rfl⟩)
  have h₃ := h₂.snoc (.S_Act (i := 0) rfl (not_enter nofun) ⟨act_get _ _, current_of_eq rfl⟩)
  have h₄ := h₃.snoc (.S_Enter (i := 0) rfl ⟨rfl, rfl, 0, "hi", rfl⟩)
  have h₅ := h₄.snoc (.S_Act (i := 0) (a := .ok ("token", some someSession)) rfl not_enter_ai
    ⟨⟨rfl, true, trivial, rfl⟩, current_of_eq rfl⟩)
  have h₆ := h₅.snoc (.S_Act (i := 0) rfl not_enter_ai ⟨act_get _ _, current_of_eq rfl⟩)
  have h₇ := h₆.snoc (.S_Act (i := 0) (a := .ok aiResponse) rfl not_enter_ai
    ⟨⟨rfl, true, trivial, rfl⟩, current_of_eq rfl⟩)
  have h₈ := h₇.snoc (.S_Act (i := 0) rfl not_enter_ai ⟨act_get _ _, current_of_eq rfl⟩)
  have hcurrent : ∀ found, Task.ai (some (aiState "c")) = .ai found → some (aiState "d") ≠ some (aiState "c") →
      ∃ cs, found = some cs ∧ some (aiState "c") = some cs := by
    rintro _ ⟨⟩ _
    exact ⟨aiState "c", rfl, rfl⟩
  have hset (next : Bool → Call Int (Result Int)) : ((system wholeAmounts).restrict Current).Step
      ⟨⟨some (aiState "c"), 1⟩, [(.ai (some (aiState "c")), .call (.stateSet (aiState "d")) next)]⟩ _ _ :=
    .S_Act (i := 0) rfl not_enter_ai ⟨act_set _ _ _, hcurrent⟩
  exact ⟨_, _, h₈, rfl, _, _, hset _, rfl, ai_message_undisturbed h₈ (hset _) List.mem_cons_self⟩

/-- The user cancels while the AI is asked. The reply finds no state, and makes one. -/
theorem cancel_undone : ∃ (t t' : List (Task × (op : Op Int) × Ans op))
    (w w' : Pool Shared Task (Op Int) Ans (Result Int)) (found : Option ConversationState) (p : Call Int (Result Int)),
    Run (system wholeAmounts).Step ⟨.init (some (aiState "c")), []⟩ t w ∧
      w.procs = [(.ai found, p), (.handler, .ret (some (.cancelled "en")))] ∧ w.shared.store = none ∧
      Run (system wholeAmounts).Step w t' w' ∧ t'.map Prod.fst = [.ai found, .ai found, .ai none] ∧
      w'.shared.store = some (aiState "d") := by
  have h₁ : Run (system wholeAmounts).Step ⟨.init (some (aiState "c")), []⟩ _ _ :=
    .single (.S_Start ⟨rfl, rfl, .text false "hi", rfl⟩)
  have h₂ := h₁.snoc (.S_Act (i := 0) rfl (not_enter nofun) (act_get _ _))
  have h₃ := h₂.snoc (.S_Act (i := 0) rfl (not_enter nofun) (act_get _ _))
  have h₄ := h₃.snoc (.S_Enter (i := 0) rfl ⟨rfl, rfl, 0, "hi", rfl⟩)
  have h₅ := h₄.snoc (.S_Act (i := 0) (a := .ok ("token", some someSession)) rfl not_enter_ai
    ⟨rfl, true, trivial, rfl⟩)
  have h₆ := h₅.snoc (.S_Act (i := 0) rfl not_enter_ai (act_get _ _))
  have h₇ := h₆.snoc (.S_Start ⟨rfl, rfl, .cancel, rfl⟩)
  have h₈ := h₇.snoc (.S_Act (i := 1) (a := true) rfl (not_enter nofun) ⟨rfl, true, fun _ => rfl, rfl⟩)
  have h₉ := h₈.snoc (.S_Act (i := 1) (a := .ok (some someSession)) rfl (not_enter nofun) ⟨rfl, true, trivial, rfl⟩)
  refine ⟨_, _, _, _, _, _, h₉, rfl, rfl, ((Run.single (.S_Act (i := 0) (a := .ok aiResponse) rfl not_enter_ai
    ⟨rfl, true, trivial, rfl⟩)).snoc (.S_Act (i := 0) rfl not_enter_ai (act_get _ _))).snoc
    (.S_Act (i := 0) rfl not_enter_ai (act_set _ _ _)), rfl, rfl⟩

end InFlight

/-! ## Languages -/

namespace Auth.SessionManager

variable {store : Option (Session × Int)} {now : Int} {t : List (Task × (op : Op) × Ans op)}
  {w : Pool Shared Task Op Ans Result}

/-- While every `Authenticate` finds no other language chosen than its own, the language of the last successful
`SetLang` is that of the stored session and of every session that a `GetValidToken` returns that started after it. -/
theorem language_survives (hr : Run (system.restrict Unchosen).Step ⟨.init store now, []⟩ t w) :
    (∀ sess expiry, w.shared.store = some (sess, expiry) → ∀ lang, w.shared.chosen = some lang → sess.lang = lang) ∧
    ∀ task token sess, (task, .ret (.token (.ok (token, some sess)))) ∈ w.procs →
      task.startedAt = w.shared.choices → ∀ lang, w.shared.chosen = some lang → sess.lang = lang := by
  have hI : contract.I (.init store now) := fun _ _ _ _ h => nomatch h
  obtain ⟨hstore, hsafe⟩ := System.Kept.run contract_closed meets_contract hI hr
  refine ⟨hstore, fun task token sess hmem hstarted => ?_⟩
  have hreturned : Returned task w.shared (.token (.ok (token, some sess))) := hsafe _ hmem
  exact (hreturned token sess rfl).2 hstarted.symm

/-- A session that is valid until the second 1000. -/
def sessionIn (token lang : String) : Session := ⟨token, "", 1000, [], "user", "customer", lang⟩

def startState : Shared := .init (some (sessionIn "old" "ar", 1000 * second)) 0

/-- `SetLang` and then `GetValidToken`, long before the token expires. -/
theorem language_survives_valid : ∃ (t : List (Task × (op : Op) × Ans op)) (w : Pool Shared Task Op Ans Result),
    Run (system.restrict Unchosen).Step ⟨startState, []⟩ t w ∧ w.shared.chosen = some "en" ∧
      (⟨.getValidToken, 1⟩, .ret (.token (.ok ("old", some (sessionIn "old" "en"))))) ∈ w.procs ∧
      (sessionIn "old" "en").lang = "en" := by
  have h₁ : Run (system.restrict Unchosen).Step ⟨startState, []⟩ _ _ :=
    .single (.S_Start (l := ⟨.setLang "en", 0⟩) ⟨rfl, rfl, rfl⟩)
  have h₂ := h₁.snoc (.S_Act (i := 0) rfl (fun _ h => h) ⟨act_get _ _, trivial⟩)
  have h₃ := h₂.snoc (.S_Act (i := 0) rfl (fun _ h => h) ⟨act_clock _ _, trivial⟩)
  have h₄ := h₃.snoc (.S_Act (i := 0) (a := .ok) rfl (fun _ h => h) ⟨⟨rfl, rfl⟩, .inl ⟨"en", rfl⟩⟩)
  have h₅ := h₄.snoc (.S_Start (l := ⟨.getValidToken, 1⟩) ⟨rfl, rfl, rfl⟩)
  have h₆ := h₅.snoc (.S_Act (i := 1) rfl (fun _ h => h) ⟨act_get _ _, trivial⟩)
  have h₇ := h₆.snoc (.S_Act (i := 1) rfl (fun _ h => h) ⟨act_clock _ _, trivial⟩)
  have hlang := (language_survives h₇).2 ⟨.getValidToken, 1⟩ "old" (sessionIn "old" "en")
    (List.mem_cons_of_mem _ List.mem_cons_self) rfl "en" rfl
  exact ⟨_, _, h₇, rfl, List.mem_cons_of_mem _ List.mem_cons_self, hlang⟩

def renewal : Client.AuthResponse := ⟨true, "new", "", 3600, [], ⟨"user", "", "customer"⟩, none⟩

/-- The token is about to expire: `GetValidToken` renews it, and the session is in Arabic again. -/
theorem renewal_resets_language : ∃ (t : List (Task × (op : Op) × Ans op)) (w : Pool Shared Task Op Ans Result),
    Run system.Step ⟨startState, []⟩ t w ∧ w.shared.chosen = some "en" ∧ w.shared.choices = 1 ∧
      (∃ expiry, w.shared.store = some (newSession renewal (800 * second), expiry)) ∧
      (⟨.getValidToken, 1⟩, .ret (.token (.ok ("new", some (newSession renewal (800 * second)))))) ∈ w.procs ∧
      (newSession renewal (800 * second)).lang = "ar" := by
  have h₁ : Run system.Step ⟨startState, []⟩ _ _ := .single (.S_Start (l := ⟨.setLang "en", 0⟩) ⟨rfl, rfl, rfl⟩)
  have h₂ := h₁.snoc (.S_Act (i := 0) rfl (fun _ h => h) (act_get _ _))
  have h₃ := h₂.snoc (.S_Act (i := 0) rfl (fun _ h => h) (act_clock _ _))
  have h₄ := h₃.snoc (.S_Act (i := 0) (a := .ok) rfl (fun _ h => h) ⟨rfl, rfl⟩)
  have h₅ := h₄.snoc (.S_Env (.advance (800 * 10 ^ 9)))
  have h₆ := h₅.snoc (.S_Start (l := ⟨.getValidToken, 1⟩) ⟨rfl, rfl, rfl⟩)
  have h₇ := h₆.snoc (.S_Act (i := 1) rfl (fun _ h => h) (act_get _ _))
  have h₈ := h₇.snoc (.S_Act (i := 1) rfl (fun _ h => h) (act_clock _ _))
  have h₉ := h₈.snoc (.S_Act (i := 1) (a := .body (.ok renewal)) rfl (fun _ h => h) ⟨rfl, rfl⟩)
  have h₁₀ := h₉.snoc (.S_Act (i := 1) rfl (fun _ h => h) (act_clock _ _))
  have h₁₁ := h₁₀.snoc (.S_Act (i := 1) rfl (fun _ h => h) (act_clock _ _))
  have h₁₂ := h₁₁.snoc (.S_Act (i := 1) (a := .ok) rfl (fun _ h => h) ⟨rfl, rfl⟩)
  exact ⟨_, _, h₁₂, rfl, rfl, ⟨_, rfl⟩, List.mem_cons_of_mem _ List.mem_cons_self, rfl⟩

end Auth.SessionManager

/-! ## What the user is told about a deposit -/

/-- Whatever becomes of the request, the user is told the truth about it, but for a response that says that the deposit
has failed. -/
theorem addCredit_reports_iff {F : Type} (h : HandlerSet F) (text : String) (cs : ConversationState)
    (hstep : cs.step = 3) (unmarshal : String → Except String TransactionResponse) (x : Client.Exchange)
    (t : List ((op : Op F) × Ans op)) (r : Result F) (hr : Run Program.Step (handleAddCreditStep h text cs) t (.ret r))
    (flow : Nat) (token : String) (req : AdminDepositRequest F)
    (hev : ⟨.adminDeposit flow token req, Client.adminDepositAnswer unmarshal x⟩ ∈ t) :
    ReportsRightly t r (x.decoded unmarshal) ↔ ∀ resp, x.decoded unmarshal = some resp → resp.success = true := by
  obtain ⟨hsome, hnone⟩ := reports_of_deposit hstep hr hev
  rw [Client.adminDepositAnswer_toOption] at hsome hnone
  unfold ReportsRightly
  cases hdecoded : x.decoded unmarshal with
  | none =>
      obtain ⟨hreports, huntouched⟩ := hnone hdecoded
      exact ⟨fun _ => nofun, fun _ => ⟨⟨fun hboth => absurd hboth.1 hreports, nofun⟩, fun _ => huntouched⟩⟩
  | some resp =>
      have hboth := hsome (by rw [hdecoded]; rfl)
      constructor
      · rintro ⟨hiff, _⟩ resp' hresp
        cases hresp
        exact hiff.mp hboth
      · intro hsuccess
        have htrue := hsuccess resp rfl
        exact ⟨⟨fun _ => htrue, fun _ => hboth⟩, fun hfalse => nomatch htrue.symm.trans hfalse⟩

/-- The conversation of `twoAnswers`, before the note. -/
def beforeNote : ConversationState where
  command := .addcredit
  step := 3
  data := [("currency", "USD"), ("amount", "100.00"), ("user_id", "user-7")]
  flow := 0

/-- A run of step 3 in which the body of the reply is decoded to `resp`. -/
theorem depositNote_run (resp : TransactionResponse) :
    Run Program.Step (handleAddCreditStep wholeAmounts "-" beforeNote)
      [⟨.getSession, .ok (some someSession)⟩, ⟨.getValidToken, .ok ("token", some someSession)⟩,
        ⟨.adminDeposit 0 "token" (depositRequest wholeAmounts "-" beforeNote),
          Client.adminDepositAnswer (fun _ => .ok resp) (.answered 200 "body")⟩,
        ⟨.stateClear, true⟩]
      (.ret (some (.addCreditSuccess "en" "100.00" "USD" resp.transactionID))) :=
  run_deposit rfl someSession "token" resp

theorem addCredit_reports_iff_success : ∃ t r, Run Program.Step (handleAddCreditStep wholeAmounts "-" beforeNote) t
    (.ret r) ∧ ReportsRightly t r (some ⟨true, "tx", ""⟩) := by
  refine ⟨_, _, depositNote_run ⟨true, "tx", ""⟩, ?_⟩
  refine (addCredit_reports_iff wholeAmounts "-" beforeNote rfl (fun _ => .ok ⟨true, "tx", ""⟩)
    (.answered 200 "body") _ _ (depositNote_run ⟨true, "tx", ""⟩) 0 "token"
    (depositRequest wholeAmounts "-" beforeNote) (by simp)).mpr ?_
  rintro resp ⟨⟩
  rfl

/-- The gateway refuses the deposit in a reply with status 200, and the user is told that it was made. -/
theorem addCredit_reports_refused : ∃ t, Run Program.Step (handleAddCreditStep wholeAmounts "-" beforeNote) t
    (.ret (some (.addCreditSuccess "en" "100.00" "USD" ""))) ∧ Clears t ∧
    ⟨.adminDeposit 0 "token" (depositRequest wholeAmounts "-" beforeNote),
      Client.adminDepositAnswer (fun _ => .ok ⟨false, "", "limit exceeded"⟩) (.answered 200 "body")⟩ ∈ t :=
  ⟨_, depositNote_run ⟨false, "", "limit exceeded"⟩, ⟨true, by simp⟩, by simp⟩

/-! ## Questions to the AI -/

/-- A question to the AI leaves the user in a conversation with it if and only if there was no conversation before, or
one with the AI. The steps of `/setrate` and `/addcredit` take the text that follows as before. -/
theorem question_switches_iff {F : Type} {h : HandlerSet F} {flow : Nat} {text : String}
    {store store' : Option ConversationState} {t : List ((op : Op F) × Ans op)} {r : Result F}
    (hquestion : trimSpace (trimPrefix text "/ai") ≠ "") (he : Ends alone store (handleAI h flow text) t r store') :
    (activeCommand store' = some .ai ↔ store = none ∨ activeCommand store = some .ai) ∧
      (activeCommand store' = some .ai → ∀ flow' text', Routes h store' flow' text' (handleAIMessage h flow' text')) ∧
      (activeCommand store = some .setrate → ∀ flow' text', ∃ cs, store' = some cs ∧
        Routes h store' flow' text' (handleSetRateStep h text' cs)) ∧
      (activeCommand store = some .addcredit → ∀ flow' text', ∃ cs, store' = some cs ∧
        Routes h store' flow' text' (handleAddCreditStep h text' cs)) := by
  have hafter := (wp_handleAI hquestion).ends he
  have hkept : ∀ c, activeCommand store = some c → activeCommand store' = some c := by
    intro c hc
    rw [hafter, commandAfterQuestion, hc]
    rfl
  refine ⟨?_, fun hai _ _ => routes_ai hai, fun hc _ _ => routes_setrate (hkept _ hc),
    fun hc _ _ => routes_addcredit (hkept _ hc)⟩
  cases store with
  | none => exact ⟨fun _ => .inl rfl, fun _ => hafter⟩
  | some cs =>
      rw [hkept cs.command rfl]
      exact ⟨.inr, fun hor => hor.resolve_left (Option.some_ne_none cs)⟩

/-- A conversation in which the AI has answered. -/
def ConversationState.answered (cs : ConversationState) : ConversationState :=
  { cs with data := (cs.data.put "ai_conversation_id" "id").put "ai_conversation_id" "d" }

/-- A question in the middle of a conversation, and its answer. -/
theorem question_answered (cs : ConversationState) : ∃ t, Ends alone (some cs) (handleAI wholeAmounts 1 "/ai hi") t
    (some (.aiAnswer "en" "" [])) (some cs.answered) := by
  have hid : (cs.data.put "ai_conversation_id" "id").get "ai_conversation_id" = "id" := by
    simp [Data.get, Data.put]
  refine ends_handleAI someSession "id" (by decide) ?_
  refine exists_ends_call (alone_stored _) (exists_ends_call (alone_set _ _) ?_)
  refine exists_ends_call (x := .ok ("token", some someSession)) ⟨trivial, trivial, rfl⟩ ?_
  refine exists_ends_call (alone_stored _) ?_
  dsimp only [Program.ret_bind, InFlight.storeAfter]
  rw [hid]
  refine exists_ends_call (x := .ok InFlight.aiResponse) ⟨trivial, trivial, rfl⟩ ?_
  exact exists_ends_call (alone_stored _) (exists_ends_call (alone_set _ _) ⟨[], .ret⟩)

/-- A second question. -/
theorem question_switches_iff_again : ∃ t, Ends alone (some (InFlight.aiState "c")) (handleAI wholeAmounts 1 "/ai hi")
    t (some (.aiAnswer "en" "" [])) (some (InFlight.aiState "c").answered) ∧
    activeCommand (some (InFlight.aiState "c").answered) = some .ai := by
  obtain ⟨t, he⟩ := question_answered (InFlight.aiState "c")
  exact ⟨t, he, (question_switches_iff (by decide) he).1.mpr (.inr rfl)⟩

/-- The user has been asked for the note of a deposit, and asks the AI something. What they write to the AI after that
is taken for the note. -/
theorem question_leaves_addcredit : (∃ t, Ends alone (some beforeNote) (handleAI wholeAmounts 1 "/ai hi") t
      (some (.aiAnswer "en" "" [])) (some beforeNote.answered)) ∧
    activeCommand (some beforeNote.answered) = some .addcredit ∧
    Routes wholeAmounts (some beforeNote.answered) 2 "thanks"
      (handleAddCreditStep wholeAmounts "thanks" beforeNote.answered) :=
  ⟨question_answered beforeNote, rfl, .of_call rfl _⟩

/-! ## Tickets -/

namespace Support

/-- An active ticket outlives any run of requests that are no concern of its agent. -/
theorem active_ticket_kept {rdb rdb' : Redis} {partnerID : String} {chatID : Int} {t : List Handled}
    (hr : Run (Restrict Step fun rdb evs _ => ∀ ev ∈ evs, ¬ ev.request.Concerns rdb partnerID chatID) rdb t rdb') :
    rdb' (activeTicketKey partnerID chatID) = rdb (activeTicketKey partnerID chatID) := by
  refine hr.stateInvariant (I := fun rdb₁ => rdb₁ (activeTicketKey partnerID chatID) =
    rdb (activeTicketKey partnerID chatID)) rfl ?_
  rintro rdb₁ evs rdb₂ hkept ⟨hs, hevs⟩
  obtain ⟨ev, rfl⟩ : ∃ ev, evs = [ev] := by
    cases hs
    exact ⟨_, rfl⟩
  exact (hs.kept (hevs ev (List.mem_singleton_self ev))).trans hkept

/-- Resolving a ticket ends the chat of the agent, whichever ticket the chat is on. That is as it should be if and only
if the chat is on the ticket that was resolved. Until then the chat goes on, however many requests of others and events
on their tickets there are. -/
theorem resolve_spares_chat_iff {rdb rdb' : Redis} {ev : Handled} {partnerID : String} {senderID : Int}
    {active ticketID : String} (hs : Step rdb [ev] rdb') (hev : ev.Resolves partnerID senderID ticketID)
    (hactive : rdb (activeTicketKey partnerID senderID) = some active) :
    rdb' (activeTicketKey partnerID senderID) = none ∧
      ((ticketID ≠ active → rdb' (activeTicketKey partnerID senderID) = rdb (activeTicketKey partnerID senderID)) ∧
        (ticketID = active → rdb' (activeTicketKey partnerID senderID) = none) ↔ ticketID = active) ∧
      ∀ t rdb₁, Run (Restrict Step fun rdb evs _ => ∀ ev ∈ evs, ¬ ev.request.Concerns rdb partnerID senderID)
        rdb t rdb₁ → rdb₁ (activeTicketKey partnerID senderID) = some active := by
  have hcleared := hs.cleared hev
  refine ⟨hcleared, ?_, fun t rdb₁ hr => (active_ticket_kept hr).trans hactive⟩
  rw [hcleared, hactive]
  constructor
  · rintro ⟨hother, _⟩
    by_contra hne
    cases hother hne
  · rintro rfl
    exact ⟨fun hne => absurd rfl hne, fun _ => rfl⟩

def agentSession : Auth.Session := ⟨"token", "", 1000, ["CUSTOMER_SUPPORT"], "agent", "staff", "en"⟩

/-- The active ticket of an agent is `A`. -/
def chattingAboutA : Redis := Function.update (fun _ => none) (activeTicketKey "p" 7) (some "A")

def acceptsA : Handled where
  request := .acceptCallback "p" 7 "A" none
  ops := [⟨.getValidToken "p" 7, .ok ("token", some agentSession)⟩, ⟨.assignTicket "token" "A", true⟩,
    ⟨.redisSet (activeTicketKey "p" 7) "A", true⟩]

theorem acceptsA_step : Step (fun _ => none) [acceptsA] chattingAboutA :=
  .S_Handle _ (.call rfl (.call rfl (.call rfl .ret)))

def resolves (ticketID : String) : Handled where
  request := .resolveCommand "p" 7 [ticketID]
  ops := [⟨.getValidToken "p" 7, .ok ("token", some agentSession)⟩,
    ⟨.updateTicketStatus "token" ticketID "resolved", true⟩, ⟨.redisDel (activeTicketKey "p" 7), true⟩]

theorem resolves_step (rdb : Redis) (ticketID : String) :
    Step rdb [resolves ticketID] (Function.update rdb (activeTicketKey "p" 7) none) :=
  .S_Handle _ (.call rfl (.call rfl (.call rfl .ret)))

theorem resolves_ticket (ticketID : String) : (resolves ticketID).Resolves "p" 7 ticketID :=
  ⟨rfl, rfl, "token", by simp⟩

theorem resolve_spares_chat_iff_active :
    Step chattingAboutA [resolves "A"] (Function.update chattingAboutA (activeTicketKey "p" 7) none) ∧
      Function.update chattingAboutA (activeTicketKey "p" 7) none (activeTicketKey "p" 7) = none := by
  refine ⟨resolves_step _ _, ?_⟩
  exact (resolve_spares_chat_iff (resolves_step chattingAboutA "A") (resolves_ticket "A")
    (Function.update_self _ _ _)).1

/-- An agent accepts ticket `A`, and then resolves ticket `B`: the chat on `A` has ended. -/
theorem resolving_other_ends_chat : ∃ rdb, Run Step (fun _ => none) [acceptsA, resolves "B"] rdb ∧
    Step (fun _ => none) [acceptsA] chattingAboutA ∧
    chattingAboutA (activeTicketKey "p" 7) = some "A" ∧ Step chattingAboutA [resolves "B"] rdb ∧
    (resolves "B").Resolves "p" 7 "B" ∧ rdb (activeTicketKey "p" 7) = none := by
  have h₁ : Run Step (fun _ => none) [acceptsA] chattingAboutA := .single acceptsA_step
  have h₂ := h₁.snoc (resolves_step chattingAboutA "B")
  exact ⟨_, h₂, acceptsA_step, Function.update_self _ _ _, resolves_step _ _, resolves_ticket "B",
    Function.update_self _ _ _⟩

/-! ### Partners -/

/-- However the handlers of all partners interleave, and whichever calls to Redis fail: a message of an agent goes to a
ticket that has come to the desk of the agent's own partner, with a token that the session manager gave for that agent;
notifications go to the partner's own agents; and a task changes no keys but those of its partner. That is so for plain
IDs; the pattern of the agents of a partner `a` would match those of a partner `a:b`. -/
theorem desk_isolates_partners {ids : String → Prop} {t : DeskLog}
    {w : Pool (Recorded Redis Task DeskOp DeskAns) Task DeskOp DeskAns Unit}
    (hplain : ∀ partnerID, ids partnerID → PlainID partnerID)
    (hr : Run (desk ids).system.Step ⟨⟨Redis.empty, []⟩, []⟩ t w) :
    Each (fun before e => Lawful before e.1 e.2.1) t ∧
      ∀ key value, w.shared.state key = some value → ∃ partnerID, Holds t partnerID key value := by
  obtain ⟨hallowed, _, hcontent⟩ := desk_audited hplain hr
  exact ⟨fun before e after heq => (hallowed before e after heq).2, hcontent⟩

theorem desk_act {ids : String → Prop} {rdb rdb' : Redis} {log : DeskLog}
    {procs : List (Task × DeskCall Unit)} {task : Task} (i : Nat) (op : DeskOp) (a : DeskAns op)
    {next : DeskAns op → DeskCall Unit} (hi : procs[i]? = some (task, .call op next)) (hact : Answers rdb op a rdb') :
    (desk ids).system.Step ⟨⟨rdb, log⟩, procs⟩ [(task, ⟨op, a⟩)]
      ⟨⟨rdb', log ++ [(task, ⟨op, a⟩)]⟩, procs.set i (task, next a)⟩ :=
  Service.step_answer i op a hi hact

theorem get_after_set (rdb : Redis) (key value : String) : Answers (Function.update rdb key (some value))
    (.support (.redisGet key)) (.ok value) (Function.update rdb key (some value)) :=
  ⟨fun _ heq => Except.ok.inj heq ▸ Function.update_self key (some value) rdb, rfl⟩

def assignedEvent : SupportEvent := ⟨"A", "p", "agent"⟩

def agentReply : Task := .request (.replyToTicket "p" 7 ⟨101, "hello", some 100⟩)

/-- An agent signs in and gets a ticket, and answers the message about it. -/
theorem desk_isolates_partners_reply : ∃ (t before after : DeskLog)
    (w : Pool (Recorded Redis Task DeskOp DeskAns) Task DeskOp DeskAns Unit),
    Run (desk (· = "p")).system.Step ⟨⟨Redis.empty, []⟩, []⟩ t w ∧
      t = before ++ (agentReply, ⟨.support (.sendAgentMessage "token" "A" "hello"), true⟩) :: after ∧
      Lawful before agentReply (.support (.sendAgentMessage "token" "A" "hello")) := by
  have h₁ : Run (desk (· = "p")).system.Step ⟨⟨Redis.empty, []⟩, []⟩ _ ⟨⟨Redis.empty, []⟩, _⟩ :=
    .single (Service.step_start (.start "p" 7) ⟨rfl, rfl, rfl⟩)
  have h₂ := h₁.snoc (desk_act 0 (.authenticate "p" 7) (.ok agentSession) rfl rfl)
  have h₃ := h₂.snoc (desk_act 0 (.support (.redisSet (agentKey "p" "agent") "7")) true rfl (.inl rfl))
  have h₄ := h₃.snoc (Service.step_start (.request (.ticketCreated (some assignedEvent))) ⟨rfl, rfl, rfl⟩)
  have h₅ := h₄.snoc (desk_act 1 (.support (.redisGet (agentKey "p" "agent"))) (.ok "7") rfl
    (get_after_set _ (agentKey "p" "agent") "7"))
  have h₆ := h₅.snoc
    (desk_act 1 (.support (.sendTicketNotification "p" 7 assignedEvent false)) (.ok 100) rfl rfl)
  have h₇ := h₆.snoc (desk_act 1 (.support (.redisSet (ticketMessageKey "p" 100) "A")) true rfl (.inl rfl))
  have h₈ := h₇.snoc (Service.step_start agentReply ⟨rfl, rfl, rfl⟩)
  have h₉ := h₈.snoc (desk_act 2 (.support (.redisGet (ticketMessageKey "p" 100))) (.ok "A") rfl
    (get_after_set _ (ticketMessageKey "p" 100) "A"))
  have h₁₀ := h₉.snoc
    (desk_act 2 (.support (.getValidToken "p" 7)) (.ok ("token", some agentSession)) rfl rfl)
  have h₁₁ := h₁₀.snoc (desk_act 2 (.support (.sendAgentMessage "token" "A" "hello")) true rfl rfl)
  have hplain : ∀ partnerID, partnerID = "p" → PlainID partnerID := by
    rintro _ rfl
    decide
  exact ⟨_, _, [], _, h₁₁, rfl, (desk_isolates_partners hplain h₁₁).1 _ _ _ rfl⟩

end Support

/-! ## What was typed -/

namespace Provenance

open InFlight

variable {F : Type} {h : HandlerSet F} {t : Record F}
  {w : Pool (Recorded Shared Sent (Op F) Ans) Sent (Op F) Ans (Result F)}

/-- However the handlers of a user's messages interleave, and whatever Redis loses: a rate that is set, and the
recipient, the amount (to two places) and the currency of a deposit, are what the user has typed in one and the same
conversation. They are sent with the token of the user's session, or with an empty one if there is no session. -/
theorem money_as_typed (hr : Run (chat h).system.Step ⟨⟨.init none, []⟩, []⟩ t w) :
    Each (fun before e => Lawful h before e.1 e.2.1) t := by
  have hinit : (policy h).Inv [] (.init none) := fun cs hcs => nomatch (hcs : none = some cs)
  refine (Policy.audited policy_sound hinit ?_ hr).1
  rintro log s sent p s' hinv ⟨_, rfl, rfl⟩
  exact ⟨hinv, keeps_handler rfl⟩

theorem chat_act {s : Shared} {log : Record F} {procs : List (Sent × Call F (Result F))} {sent : Sent} (i : Nat)
    (op : Op F) (a : Ans op) {next : Ans op → Call F (Result F)} (hi : procs[i]? = some (sent, .call op next))
    (hact : Answers s.store op true a) (hvouched : Vouched op a) :
    (chat h).system.Step ⟨⟨s, log⟩, procs⟩ [(sent, ⟨op, a⟩)]
      ⟨⟨{ s with store := storeAfter s.store op true }, log ++ [(sent, ⟨op, a⟩)]⟩, procs.set i (sent, next a)⟩ :=
  Service.step_answer i op a hi ⟨hvouched, true, hact, rfl⟩

theorem token_vouched : Vouched (F := Int) .getValidToken (.ok ("token", some someSession)) := by
  have h₁ : Run Program.Step Auth.SessionManager.getValidToken _ _ :=
    .single (.of_call rfl (.ok (some ⟨"token", "", 1000, [], someSession.userID, "staff", someSession.lang⟩)))
  have h₂ := h₁.snoc (.of_call rfl 0)
  exact ⟨_, _, h₂, rfl⟩

/-- The new rate of the dollar. -/
def newRate : Sent := ⟨2, .text true "100"⟩

theorem money_as_typed_rate : ∃ (t before after : Record Int)
    (w : Pool (Recorded Shared Sent (Op Int) Ans) Sent (Op Int) Ans (Result Int)),
    Run (chat wholeAmounts).system.Step ⟨⟨.init none, []⟩, []⟩ t w ∧
      t = before ++ (newRate, ⟨.adminUpdateCurrency "token" "USD" 100, .ok ()⟩) :: after ∧
      Lawful wholeAmounts before newRate (.adminUpdateCurrency "token" "USD" 100) := by
  have h₁ : Run (chat wholeAmounts).system.Step ⟨⟨.init none, []⟩, []⟩ _ ⟨⟨⟨none, 1⟩, []⟩, _⟩ :=
    .single (Service.step_start ⟨0, .setrate⟩ ⟨rfl, rfl, rfl⟩)
  have h₂ := h₁.snoc (chat_act 0 .getValidToken (.ok ("token", some someSession)) rfl trivial token_vouched)
  have h₃ := h₂.snoc (chat_act 0 (.getCurrencyList "token") (.ok []) rfl trivial trivial)
  have h₄ := h₃.snoc (chat_act 0 (.stateSet ⟨.setrate, 1, [], 0⟩) true rfl (fun _ => rfl) trivial)
  have h₅ := h₄.snoc (Service.step_start ⟨1, .text true "usd"⟩ ⟨rfl, rfl, rfl⟩)
  have h₆ := h₅.snoc (chat_act 1 .stateGet (.ok (some ⟨.setrate, 1, [], 0⟩)) rfl ⟨rfl, rfl⟩ trivial)
  have h₇ := h₆.snoc (chat_act 1 .getSession (.ok (some someSession)) rfl trivial trivial)
  have h₈ := h₇.snoc (chat_act 1 (.stateSet ⟨.setrate, 2, [("currency", "USD")], 0⟩) true rfl (fun _ => rfl) trivial)
  have h₉ := h₈.snoc (Service.step_start newRate ⟨rfl, rfl, rfl⟩)
  have h₁₀ := h₉.snoc (chat_act 2 .stateGet (.ok (some ⟨.setrate, 2, [("currency", "USD")], 0⟩)) rfl ⟨rfl, rfl⟩ trivial)
  have h₁₁ := h₁₀.snoc (chat_act 2 .getSession (.ok (some someSession)) rfl trivial trivial)
  have h₁₂ := h₁₁.snoc (chat_act 2 .getValidToken (.ok ("token", some someSession)) rfl trivial token_vouched)
  have h₁₃ := h₁₂.snoc (chat_act 2 (.adminUpdateCurrency "token" "USD" 100) (.ok ()) rfl trivial trivial)
  exact ⟨_, _, [], _, h₁₃, rfl, money_as_typed h₁₃ _ _ _ rfl⟩

end Provenance

/-! ## Whose account -/

namespace Account

open Client Auth

variable {t : Record} {w : Pool (Recorded Shared Command Op Ans) Command Op Ans Unit}

/-- However the commands of all users of all partners interleave, and whatever fails: the gateway is asked with a token
that the identity service gave to the very user of the command and that was current, a user is shown what the gateway
answered to that, and a session is stored under the key of the user it was given to. -/
theorem account_shown_to_owner (now : Int) (hr : Run bots.system.Step ⟨⟨.init now, []⟩, []⟩ t w) :
    Each (fun before e => Lawful before e.1 e.2.1) t ∧
      ∀ partnerID telegramID sess expiry,
        w.shared.state.redis (sessionKey partnerID telegramID) = some (sess, expiry) →
          Issued t partnerID telegramID sess := by
  have hinit : policy.Inv [] (.init now) := fun _ _ _ h => nomatch h
  have haudited := Policy.audited policy_sound hinit (fun {log s cmd p s'} hinv hstart => by
    obtain ⟨_, rfl, rfl⟩ := hstart
    exact ⟨hinv, keeps_program⟩) hr
  refine ⟨haudited.1, fun partnerID telegramID sess expiry hfound => ?_⟩
  obtain ⟨partnerID', telegramID', hkey, hissued⟩ := haudited.2 _ _ _ hfound
  obtain ⟨rfl, rfl⟩ := sessionKey_inj hkey
  exact hissued

/-- An answer of the identity service, for an hour. -/
def hourAnswer : AuthResponse := ⟨true, "token", "refresh", 3600, [], ⟨"u", "U", "customer"⟩, none⟩

def startCommand : Command := ⟨0, "p", 7, .start⟩

def balanceCommand : Command := ⟨1, "p", 7, .balance⟩

theorem bots_act {s s' : Shared} {log : Record} {procs : List (Command × Call Unit)} {cmd : Command} (i : Nat) (op : Op)
    (a : Ans op) {next : Ans op → Call Unit} (hi : procs[i]? = some (cmd, .call op next)) (hact : Answers s op a s') :
    bots.system.Step ⟨⟨s, log⟩, procs⟩ [(cmd, ⟨op, a⟩)]
      ⟨⟨s', log ++ [(cmd, ⟨op, a⟩)]⟩, procs.set i (cmd, next a)⟩ :=
  Service.step_answer i op a hi hact

theorem session_after_set (rdb : Redis) (partnerID : String) (telegramID : Int) (sess : Auth.Session)
    (expiry now : Int) (n : Nat) :
    let s : Shared := ⟨Function.update rdb (sessionKey partnerID telegramID) (some (sess, expiry)), now, n⟩
    Answers s (.session partnerID telegramID .get) (.ok (some sess)) s := by
  refine ⟨rfl, fun found h => ?_⟩
  simp only [Function.update_self, Option.map_some]
  exact (Except.ok.inj h).symm

/-- A user signs in and asks for the balance. -/
theorem account_shown_to_owner_balance : ∃ (t before after : Record)
    (w : Pool (Recorded Shared Command Op Ans) Command Op Ans Unit),
    Run bots.system.Step ⟨⟨.init 0, []⟩, []⟩ t w ∧
      t = before ++ (balanceCommand, ⟨.send (.balance "ar" "250" "IQD"), ()⟩) :: after ∧
      Lawful before balanceCommand (.send (.balance "ar" "250" "IQD")) := by
  have h₁ : Run bots.system.Step ⟨⟨.init 0, []⟩, []⟩ _ ⟨⟨⟨fun _ => none, 0, 1⟩, []⟩, _⟩ :=
    .single (Service.step_start startCommand ⟨rfl, rfl, rfl⟩)
  have h₂ := h₁.snoc (bots_act 0 (.session "p" 7 .exchange) (.body (.ok hourAnswer)) rfl rfl)
  have h₃ := h₂.snoc (bots_act 0 (.session "p" 7 .clock) 0 rfl ⟨rfl, rfl⟩)
  have h₄ := h₃.snoc (bots_act 0 (.session "p" 7 .clock) 0 rfl ⟨rfl, rfl⟩)
  have h₅ := h₄.snoc
    (bots_act 0 (.session "p" 7 (.set (newSession hourAnswer 0) (3600 * second))) .ok rfl rfl)
  have h₆ := h₅.snoc (Service.step_start balanceCommand ⟨rfl, rfl, rfl⟩)
  have h₇ := h₆.snoc (bots_act 1 (.session "p" 7 .get) (.ok (some (newSession hourAnswer 0))) rfl
    (session_after_set _ "p" 7 (newSession hourAnswer 0) _ 0 2))
  have h₈ := h₇.snoc (bots_act 1 (.session "p" 7 .clock) 0 rfl ⟨rfl, rfl⟩)
  have h₉ := h₈.snoc (bots_act 1 (.getWalletBalance "token" "IQD") (.ok ⟨"250", "IQD"⟩) rfl rfl)
  have h₁₀ := h₉.snoc (bots_act 1 (.send (.balance "ar" "250" "IQD")) () rfl rfl)
  exact ⟨_, _, [], _, h₁₀, rfl, (account_shown_to_owner 0 h₁₀).1 _ _ _ rfl⟩

end Account

end Gopkg.Telegram
