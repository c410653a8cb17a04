import Gopkg.Telegram.Lemmas.AddCredit
import Gopkg.Telegram.Lemmas.InFlight
import Gopkg.Telegram.Provenance

/-!
# The data of a command

Every handler writes a state that it has read, with what its own message adds to it.
-/

namespace Gopkg.Telegram.Provenance

open Lts InFlight

variable {F : Type} {h : HandlerSet F} {log log' : Record F} {flow : Nat} {text code : String}
  {cs : ConversationState} {sent : Sent} {token : String}

/-! ## A longer record -/

theorem TypedIn.mono (hsub : log ⊆ log') (ht : TypedIn log flow text) : TypedIn log' flow text := by
  obtain ⟨number, isReply, cs, hmem, hflow⟩ := ht
  exact ⟨number, isReply, cs, hsub hmem, hflow⟩

theorem CurrencyTyped.mono (hsub : log ⊆ log') (hc : CurrencyTyped h log flow code) :
    CurrencyTyped h log' flow code := by
  obtain ⟨text, ht, hcode⟩ := hc
  exact ⟨text, ht.mono hsub, hcode⟩

theorem UserTyped.mono {userID : String} (hsub : log ⊆ log') (hu : UserTyped log flow userID) :
    UserTyped log' flow userID := by
  obtain ⟨text, ht, huser⟩ := hu
  exact ⟨text, ht.mono hsub, huser⟩

theorem AmountTyped.mono {amount currency : String} (hsub : log ⊆ log')
    (ha : AmountTyped h log flow amount currency) : AmountTyped h log' flow amount currency := by
  obtain ⟨text, first, second, value, ht, hamount⟩ := ha
  exact ⟨text, first, second, value, ht.mono hsub, hamount⟩

theorem Filled.mono (hsub : log ⊆ log') (hf : Filled h log cs) : Filled h log' cs where
  currency hc hs := (hf.currency hc hs).mono hsub
  user hc hs := (hf.user hc hs).mono hsub
  amount hc hs := (hf.amount hc hs).mono hsub

theorem TokenGiven.mono {sess : Option Auth.Session} (hsub : log ⊆ log') (ht : TokenGiven log sent token sess) :
    TokenGiven log' sent token sess :=
  ⟨hsub ht.1, ht.2⟩

theorem Lawful.mono {op : Op F} (hsub : log ⊆ log') (hl : Lawful h log sent op) : Lawful h log' sent op := by
  cases op with
  | stateSet cs => exact Filled.mono hsub hl
  | adminUpdateCurrency token code rate =>
      obtain ⟨⟨sess, htoken⟩, isReply, text, flow, hsent, ht, hparse, hpos, hc⟩ := hl
      exact ⟨⟨sess, htoken.mono hsub⟩, isReply, text, flow, hsent, ht.mono hsub, hparse, hpos, hc.mono hsub⟩
  | adminDeposit flow token req =>
      obtain ⟨⟨sess, htoken⟩, isReply, text, amount, hsent, ht, hnote, hu, ha, hamount⟩ := hl
      exact ⟨⟨sess, htoken.mono hsub⟩, isReply, text, amount, hsent, ht.mono hsub, hnote, hu.mono hsub, ha.mono hsub,
        hamount⟩
  | askAI token req =>
      obtain ⟨sess, htoken⟩ := hl
      exact ⟨sess, htoken.mono hsub⟩
  | stateGet | stateClear | getSession | getValidToken | newUUID | replyToTicket | getCurrencyList _ => trivial

/-! ## States -/

theorem Data.get_put_self (d : Data) (key value : String) : (d.put key value).get key = value := by
  rw [Data.get, Data.put, List.lookup_cons, beq_self_eq_true]
  rfl

/-- A state without data, at a step that needs none. -/
theorem filled_first {command : Command} {step : Int} (hstep : step ≠ 2 ∧ step ≠ 3) :
    Filled h log { command := command, step := step, data := [], flow := flow } where
  currency _ hs := absurd hs hstep.1
  user _ hs := hs.elim (fun hs => absurd hs hstep.1) fun hs => absurd hs hstep.2
  amount _ hs := absurd hs hstep.2

theorem filled_ai {data : Data} : Filled h log { command := .ai, step := 0, data := data, flow := flow } where
  currency hc := nomatch hc
  user hc := nomatch hc
  amount hc := nomatch hc

/-- The id of the AI conversation does not matter to the other data. -/
theorem Filled.put_conversation (hf : Filled h log cs) (convID : String) :
    Filled h log { cs with data := cs.data.put "ai_conversation_id" convID } := by
  have hget : ∀ key, key ≠ "ai_conversation_id" → (cs.data.put "ai_conversation_id" convID).get key = cs.data.get key :=
    fun key hkey => Data.get_put_ne _ _ hkey
  constructor
  · intro hc hs
    rw [hget _ (by decide)]
    exact hf.currency hc hs
  · intro hc hs
    rw [hget _ (by decide)]
    exact hf.user hc hs
  · intro hc hs
    rw [hget _ (by decide), hget _ (by decide)]
    exact hf.amount hc hs

theorem filled_currency (hc : cs.command = .setrate) (hcode : CurrencyTyped h log cs.flow code) :
    Filled h log { cs with data := cs.data.put "currency" code, step := 2 } where
  currency _ _ := by
    rw [Data.get_put_self]
    exact hcode
  user hc' := nomatch hc.symm.trans hc'
  amount hc' := nomatch hc.symm.trans hc'

theorem filled_user {userID : String} (hc : cs.command = .addcredit) (hu : UserTyped log cs.flow userID) :
    Filled h log { cs with data := cs.data.put "user_id" userID, step := 2 } where
  currency hc' := nomatch hc.symm.trans hc'
  user _ _ := by
    rw [Data.get_put_self]
    exact hu
  amount _ hs := nomatch hs

theorem filled_amount {amount currency : String} (hc : cs.command = .addcredit)
    (hu : UserTyped log cs.flow (cs.data.get "user_id")) (ha : AmountTyped h log cs.flow amount currency) :
    Filled h log { cs with data := (cs.data.put "amount" amount).put "currency" currency, step := 3 } where
  currency hc' := nomatch hc.symm.trans hc'
  user _ _ := by
    rw [Data.get_put_ne _ _ (by decide), Data.get_put_ne _ _ (by decide)]
    exact hu
  amount _ _ := by
    rw [Data.get_put_ne _ _ (by decide), Data.get_put_self, Data.get_put_self]
    exact ha

/-! ## Tokens -/

theorem Vouched.exists_session {a : Except Unit (String × Option Session)} (hv : Vouched (F := F) .getValidToken a)
    {found : Option Session} (ha : a = .ok (token, found)) :
    ∃ sess : Option Auth.Session, found = sess.map seen ∧ token = (sess.map Auth.Session.token).getD "" := by
  obtain ⟨ops, r, hr, rfl⟩ := hv
  cases r with
  | error err => cases ha
  | ok r =>
      obtain ⟨token', sess⟩ := r
      cases ha
      exact ⟨sess, rfl, Auth.SessionManager.getValidToken_returns hr⟩

/-! ## The policy -/

def policy (h : HandlerSet F) : Policy Shared Sent (Op F) Ans where
  Allows := Lawful h
  Inv log s := ∀ cs, s.store = some cs → Filled h log cs
  Known log
    | .stateGet, a => ∀ cs, a = .ok (some cs) → Filled h log cs
    | .getValidToken, a => Vouched (F := F) .getValidToken a
    | _, _ => True

theorem policy_sound : (policy h).Sound (chat h) where
  mono := Lawful.mono
  answer := by
    rintro log s sent op a s' hinv hlaw ⟨_, done, _, rfl⟩ cs hcs
    have hsub : log ⊆ log ++ [(sent, ⟨op, a⟩)] := List.subset_append_left _ _
    have hold : storeAfter s.store op done = s.store ∨ storeAfter s.store op done = none ∨
        ∃ cs', op = .stateSet cs' ∧ storeAfter s.store op done = some cs' := by
      cases op with
      | stateSet cs' =>
          cases done with
          | true => exact .inr (.inr ⟨cs', rfl, rfl⟩)
          | false => exact .inl rfl
      | stateClear =>
          cases done with
          | true => exact .inr (.inl rfl)
          | false => exact .inl rfl
      | _ => exact .inl rfl
    rcases hold with heq | heq | ⟨cs', rfl, heq⟩
    · exact (hinv cs (heq.symm.trans hcs)).mono hsub
    · exact nomatch heq.symm.trans hcs
    · cases heq.symm.trans hcs
      exact Filled.mono hsub hlaw
  learn := by
    rintro log log' s op a s' hinv ⟨hvouched, done, hanswers, _⟩ hsub
    cases op with
    | getValidToken => exact hvouched
    | stateGet =>
        rintro cs rfl
        exact (hinv cs hanswers.2.symm).mono hsub
    | _ => trivial
  env := by
    rintro log s s' _ rfl cs hcs
    cases hcs

/-! ## Handlers -/

/-- The handler of the message keeps to the policy, and returns with `Q`. -/
abbrev Keeps {α : Type} (h : HandlerSet F) (Q : Recorded Shared Sent (Op F) Ans → α → Prop) (p : Call F α) (sent : Sent)
    (r : Recorded Shared Sent (Op F) Ans) : Prop :=
  (policy h).Obeys (chat h) Q p sent r

variable {α : Type} {Q : Recorded Shared Sent (Op F) Ans → α → Prop} {p : Call F α}
  {r : Recorded Shared Sent (Op F) Ans}

theorem keeps_call (op : Op F) {next : Ans op → Call F α} (hp : p = .call op next) (hlaw : Lawful h r.log sent op)
    (hnext : ∀ a r', r.log ⊆ r'.log → (sent, ⟨op, a⟩) ∈ r'.log → (policy h).Known r'.log op a →
      Keeps h Q (next a) sent r') : Keeps h Q p sent r :=
  .call policy_sound op hp hlaw fun a r' hsub _ hmem hknown => hnext a r' hsub hmem hknown

/-- A handler that begins with the session, and is done if there is none. -/
theorem keeps_session {next : Except Unit (Option Session) → Call F α} {refused : α} (hp : p = .call .getSession next)
    (herror : next (.error ()) = .ret refused) (hnone : next (.ok none) = .ret refused)
    (hnext : ∀ sess r', r.log ⊆ r'.log → Keeps h (fun _ _ => True) (next (.ok (some sess))) sent r') :
    Keeps h (fun _ _ => True) p sent r := by
  refine keeps_call .getSession hp trivial fun found r' hsub _ _ => ?_
  rcases found with e | _ | sess
  · rw [herror]
    exact .ret trivial
  · rw [hnone]
    exact .ret trivial
  · exact hnext sess r' hsub

/-- A handler that asks for a token, and is done if that fails. -/
theorem keeps_given {next : Except Unit (String × Option Session) → Call F α} {refused : α}
    (hp : p = .call .getValidToken next) (herror : next (.error ()) = .ret refused)
    (hnext : ∀ token (sess : Option Auth.Session) r', r.log ⊆ r'.log → TokenGiven r'.log sent token sess →
      Keeps h (fun _ _ => True) (next (.ok (token, sess.map seen))) sent r') : Keeps h (fun _ _ => True) p sent r := by
  refine keeps_call .getValidToken hp trivial fun found r' hsub hmem hvouched => ?_
  rcases found with e | ⟨token, found⟩
  · rw [herror]
    exact .ret trivial
  · obtain ⟨sess, rfl, htoken⟩ := Vouched.exists_session hvouched rfl
    exact hnext token sess r' hsub ⟨hmem, htoken⟩

/-- A handler that is done if there is no session either. -/
theorem keeps_token {next : Except Unit (String × Option Session) → Call F α} {refused : α}
    (hp : p = .call .getValidToken next) (herror : next (.error ()) = .ret refused)
    (hnone : ∀ token, next (.ok (token, none)) = .ret refused)
    (hnext : ∀ token sess r', r.log ⊆ r'.log → TokenGiven r'.log sent token (some sess) →
      Keeps h (fun _ _ => True) (next (.ok (token, some (seen sess)))) sent r') :
    Keeps h (fun _ _ => True) p sent r := by
  refine keeps_given hp herror fun token sess r' hsub htoken => ?_
  cases sess with
  | none =>
      rw [Option.map_none, hnone]
      exact .ret trivial
  | some sess => exact hnext token sess r' hsub htoken

theorem keeps_startSetRate : Keeps h (fun _ _ => True) (startSetRate flow) sent r := by
  refine keeps_token rfl rfl (fun _ => rfl) fun token sess r₁ _ _ => ?_
  refine keeps_call (.getCurrencyList token) rfl trivial fun found r₂ _ _ _ => ?_
  cases found with
  | error e => exact .ret trivial
  | ok currencies =>
      refine keeps_call (.stateSet { command := .setrate, step := 1, data := [], flow := flow }) rfl ?_ ?_
      · exact filled_first (by decide)
      · exact fun _ _ _ _ _ => .ret trivial

theorem keeps_startAddCredit : Keeps h (fun _ _ => True) (startAddCredit flow) sent r := by
  refine keeps_session rfl rfl rfl fun sess r₁ _ => ?_
  refine keeps_call (.stateSet { command := .addcredit, step := 1, data := [], flow := flow }) rfl ?_ ?_
  · exact filled_first (by decide)
  · exact fun _ _ _ _ _ => .ret trivial

/-- A number that passes the check of a step. -/
theorem parsed_of_accepted {parsed : F × Bool} (hok : ¬ (!parsed.2 || h.leZero parsed.1) = true) :
    parsed = (parsed.1, true) ∧ h.leZero parsed.1 = false := by
  obtain ⟨value, ok⟩ := parsed
  cases ok with
  | false => exact absurd rfl hok
  | true => exact ⟨rfl, Bool.eq_false_iff.mpr hok⟩

theorem keeps_handleSetRateStep {isReply : Bool} (hsent : sent.message = .text isReply text)
    (hc : cs.command = .setrate) (hf : Filled h r.log cs) (ht : TypedIn r.log cs.flow text) :
    Keeps h (fun _ _ => True) (handleSetRateStep h text cs) sent r := by
  refine keeps_session rfl rfl rfl fun sess r₁ hsub => ?_
  have hf₁ := hf.mono hsub
  have ht₁ := ht.mono hsub
  dsimp only [Program.ret_bind]
  split
  next hstep =>
    split
    · exact .ret trivial
    next hlen =>
      refine keeps_call (.stateSet { cs with data := cs.data.put "currency" (h.toUpper (trimSpace text)), step := 2 })
        rfl ?_ ?_
      · exact filled_currency hc ⟨text, ht₁, rfl, not_not.mp hlen⟩
      · exact fun _ _ _ _ _ => .ret trivial
  next =>
    split
    next hstep =>
      split
      · exact .ret trivial
      next hrate =>
        obtain ⟨hparse, hpos⟩ := parsed_of_accepted hrate
        refine keeps_given rfl rfl fun token sess' r₂ hsub₂ htoken => ?_
        refine keeps_call
          (.adminUpdateCurrency token (cs.data.get "currency") (h.parseFloat (trimSpace text)).1) rfl ?_ ?_
        · exact ⟨⟨_, htoken⟩, isReply, text, cs.flow, hsent, ht₁.mono hsub₂, hparse, hpos,
            (hf₁.currency hc hstep).mono hsub₂⟩
        intro found r₃ _ _ _
        cases found with
        | error e => exact .ret trivial
        | ok _ => exact keeps_call .stateClear rfl trivial fun _ _ _ _ _ => .ret trivial
    next => exact .ret trivial

theorem keeps_handleAddCreditStep {isReply : Bool} (hsent : sent.message = .text isReply text)
    (hc : cs.command = .addcredit) (hf : Filled h r.log cs) (ht : TypedIn r.log cs.flow text) :
    Keeps h (fun _ _ => True) (handleAddCreditStep h text cs) sent r := by
  refine keeps_session rfl rfl rfl fun sess r₁ hsub => ?_
  have hf₁ := hf.mono hsub
  have ht₁ := ht.mono hsub
  dsimp only [Program.ret_bind]
  split
  · refine keeps_call (.stateSet { cs with data := cs.data.put "user_id" (trimSpace text), step := 2 }) rfl ?_ ?_
    · exact filled_user hc ⟨text, ht₁, rfl⟩
    · exact fun _ _ _ _ _ => .ret trivial
  split
  next hstep =>
    split
    next first second hfields =>
      split
      · exact .ret trivial
      next hamount =>
        obtain ⟨hparse, hpos⟩ := parsed_of_accepted hamount
        have ha : AmountTyped h r₁.log cs.flow (h.formatFixed2 (h.parseFloat first).1) (h.toUpper second) :=
          ⟨text, first, second, _, ht₁, hfields, hparse, hpos, rfl, rfl⟩
        refine keeps_call (.stateSet (cs.withAmount (h.formatFixed2 (h.parseFloat first).1) (h.toUpper second)))
          rfl ?_ ?_
        · exact filled_amount hc (hf₁.user hc (.inl hstep)) ha
        · exact fun _ _ _ _ _ => .ret trivial
    next => exact .ret trivial
  split
  next hstep =>
    refine keeps_given rfl rfl fun token sess' r₂ hsub₂ htoken => ?_
    refine keeps_call (.adminDeposit cs.flow token (depositRequest h text cs)) rfl ?_ ?_
    · exact ⟨⟨_, htoken⟩, isReply, text, cs.data.get "amount", hsent, ht₁.mono hsub₂, rfl,
        (hf₁.user hc (.inr hstep)).mono hsub₂, (hf₁.amount hc hstep).mono hsub₂, rfl⟩
    intro found r₃ _ _ _
    cases found with
    | error e => exact .ret trivial
    | ok resp => exact keeps_call .stateClear rfl trivial fun _ _ _ _ _ => .ret trivial
  next => exact .ret trivial

theorem keeps_getAIConversationID : Keeps h (fun r' _ => r.log ⊆ r'.log) getAIConversationID sent r := by
  refine keeps_call .stateGet rfl trivial fun found r₁ hsub _ _ => ?_
  rcases found with e | _ | cs
  · exact .ret hsub
  · exact .ret hsub
  · exact .ret hsub

theorem keeps_storeAIConversationID {convID : String} :
    Keeps h (fun r' _ => r.log ⊆ r'.log) (storeAIConversationID flow convID) sent r := by
  refine keeps_call .stateGet rfl trivial fun found r₁ hsub _ hknown => ?_
  have hnew : Keeps h (fun r' _ => r.log ⊆ r'.log) (do
      let _ ← stateSet { command := .ai, step := 0, data := [("ai_conversation_id", convID)], flow := flow })
      sent r₁ := by
    refine keeps_call (.stateSet { command := .ai, step := 0, data := [("ai_conversation_id", convID)], flow := flow })
      rfl filled_ai ?_
    exact fun _ r₂ hsub₂ _ _ => .ret (List.Subset.trans hsub hsub₂)
  rcases found with e | _ | cs
  · exact hnew
  · exact hnew
  · refine keeps_call (.stateSet { cs with data := cs.data.put "ai_conversation_id" convID }) rfl ?_ ?_
    · exact (hknown cs rfl).put_conversation convID
    · exact fun _ r₂ hsub₂ _ _ => .ret (List.Subset.trans hsub hsub₂)

theorem keeps_answerAI {sess : Session} {convID : String} {given : Auth.Session}
    (htoken : TokenGiven r.log sent token (some given)) :
    Keeps h (fun _ _ => True) (answerAI h flow text token sess convID) sent r := by
  refine keeps_call (.askAI token _) rfl ⟨given, htoken⟩ fun found r₁ _ _ _ => ?_
  cases found with
  | error e => exact .ret trivial
  | ok resp =>
      dsimp only [Program.ret_bind]
      split
      · exact .ret trivial
      split
      · exact keeps_storeAIConversationID.bind fun _ _ _ => .ret trivial
      · exact .ret trivial

theorem keeps_handleAIMessage : Keeps h (fun _ _ => True) (handleAIMessage h flow text) sent r := by
  refine keeps_token rfl rfl (fun _ => rfl) fun token sess r₁ _ htoken => ?_
  refine keeps_getAIConversationID.bind fun convID r₂ hsub₂ => ?_
  split
  · refine keeps_call .newUUID rfl trivial fun convID r₃ hsub₃ _ _ => ?_
    refine keeps_storeAIConversationID.bind fun _ r₄ hsub₄ => ?_
    exact keeps_answerAI (htoken.mono (List.Subset.trans hsub₂ (List.Subset.trans hsub₃ hsub₄)))
  · exact keeps_answerAI (htoken.mono hsub₂)

theorem keeps_handleAI : Keeps h (fun _ _ => True) (handleAI h flow text) sent r := by
  unfold handleAI getSession newUUID
  generalize trimSpace (trimPrefix text "/ai") = args
  refine keeps_session rfl rfl rfl fun sess r₁ _ => ?_
  dsimp only [Program.ret_bind]
  split
  · refine keeps_call .newUUID rfl trivial fun convID r₂ _ _ _ => ?_
    exact keeps_storeAIConversationID.bind fun _ _ _ => keeps_handleAIMessage
  · refine keeps_call (.stateSet { command := .ai, step := 0, data := [], flow := flow }) rfl filled_ai ?_
    exact fun _ _ _ _ _ => .ret trivial

theorem keeps_handleCancel : Keeps h (fun _ _ => True) handleCancel sent r := by
  refine keeps_call .stateClear rfl trivial fun _ r₁ _ _ _ => ?_
  refine keeps_call .getSession rfl trivial fun found r₂ _ _ _ => ?_
  rcases found with e | _ | sess
  · exact .ret trivial
  · exact .ret trivial
  · exact .ret trivial

/-- A handler that only looks at the session before it replies. -/
theorem keeps_idle {next : Except Unit (Option Session) → Call F α} (hp : p = .call .getSession next)
    (hnext : ∀ found, ∃ a, next found = .ret a) : Keeps h (fun _ _ => True) p sent r := by
  refine keeps_call .getSession hp trivial fun found r' _ _ _ => ?_
  obtain ⟨a, ha⟩ := hnext found
  rw [ha]
  exact .ret trivial

theorem keeps_handleText {isReply : Bool} (hsent : sent.message = .text isReply text) :
    Keeps h (fun _ _ => True) (handleText h flow text) sent r := by
  refine keeps_call .stateGet rfl trivial fun found r₁ _ hmem hknown => ?_
  rcases found with e | _ | cs
  · exact keeps_idle rfl (by rintro (_ | _ | _) <;> exact ⟨_, rfl⟩)
  · exact keeps_idle rfl (by rintro (_ | _ | _) <;> exact ⟨_, rfl⟩)
  · have ht : TypedIn r₁.log cs.flow text := by
      obtain ⟨number, message⟩ := sent
      cases hsent
      exact ⟨number, isReply, cs, hmem, rfl⟩
    have hf := hknown cs rfl
    dsimp only [Program.ret_bind]
    split
    next hc => exact keeps_handleSetRateStep hsent hc hf ht
    next hc => exact keeps_handleAddCreditStep hsent hc hf ht
    next => exact keeps_handleAIMessage
    next => exact keeps_call .stateClear rfl trivial fun _ _ _ _ _ => .ret trivial

/-- What is done once it is known whether a conversation is active. -/
theorem keeps_routed {isReply : Bool} (hsent : sent.message = .text isReply text) (active : Bool) :
    Keeps h (fun _ _ => True) (if active then handleText h flow text
      else if h.supported then do
        if ← replyToTicket then return none else handleText h flow text
      else handleText h flow text) sent r := by
  split
  · exact keeps_handleText hsent
  split
  · refine keeps_call .replyToTicket rfl trivial fun handled r₁ _ _ _ => ?_
    cases handled with
    | true => exact .ret trivial
    | false => exact keeps_handleText hsent
  · exact keeps_handleText hsent

theorem keeps_handleTextWithSupport {isReply : Bool} (hsent : sent.message = .text isReply text) :
    Keeps h (fun _ _ => True) (handleTextWithSupport h flow isReply text) sent r := by
  unfold handleTextWithSupport
  cases isReply with
  | true => exact keeps_routed hsent false
  | false =>
      refine keeps_call .stateGet rfl trivial fun found r₁ _ _ _ => ?_
      rcases found with e | _ | cs
      · exact keeps_routed hsent false
      · exact keeps_routed hsent false
      · exact keeps_routed hsent (decide (cs.command ≠ .other ""))

theorem keeps_handler {m : Incoming} (hsent : sent.message = m) :
    Keeps h (fun _ _ => True) (handler h flow m) sent r := by
  cases m with
  | text isReply t => exact keeps_handleTextWithSupport hsent
  | addcredit => exact keeps_startAddCredit
  | setrate => exact keeps_startSetRate
  | ai t => exact keeps_handleAI
  | cancel => exact keeps_handleCancel

end Gopkg.Telegram.Provenance
