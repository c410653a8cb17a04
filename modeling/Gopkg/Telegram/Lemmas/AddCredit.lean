import Gopkg.Telegram.Gateway

/-!
# The steps of `/addcredit`

What a complete run of `HandleAddCreditStep` is made of, when it stores an amount and when it makes a deposit.
-/

namespace Gopkg.Telegram

open Lts

variable {F : Type} {h : HandlerSet F} {text : String} {cs cs' : ConversationState} {t : List ((op : Op F) × Ans op)}
  {r : Result F}

/-- The state that step 2 stores. -/
def ConversationState.withAmount (cs : ConversationState) (amount currency : String) : ConversationState :=
  { cs with data := (cs.data.put "amount" amount).put "currency" currency, step := 3 }

/-- The request of step 3. -/
def depositRequest (h : HandlerSet F) (text : String) (cs : ConversationState) : AdminDepositRequest F where
  userID := cs.data.get "user_id"
  amount := (h.parseFloat (cs.data.get "amount")).1
  currency := cs.data.get "currency"
  note := if trimSpace text = "-" then "" else trimSpace text

/-- What is left of step 3 once the deposit is answered. -/
def afterDeposit (sess : Session) (cs : ConversationState) : Except GatewayErr TransactionResponse → Call F (Result F)
  | .error e => .ret (some (gatewayFailure sess.lang e))
  | .ok resp => .call .stateClear fun _ =>
      .ret (some (.addCreditSuccess sess.lang (cs.data.get "amount") (cs.data.get "currency") resp.transactionID))

theorem afterDeposit_error {sess : Session} {e : GatewayErr}
    (hr : Run Program.Step (afterDeposit sess cs (.error e)) t (.ret r)) :
    t = [] ∧ r = some (gatewayFailure sess.lang e) := by
  obtain ⟨ht, hreply⟩ := Program.run_ret rfl hr
  exact ⟨ht, hreply.symm⟩

theorem afterDeposit_ok {sess : Session} {resp : TransactionResponse}
    (hr : Run Program.Step (afterDeposit sess cs (.ok resp)) t (.ret r)) :
    ∃ ok, t = [⟨.stateClear, ok⟩] ∧ r = some (.addCreditSuccess sess.lang (cs.data.get "amount")
      (cs.data.get "currency") resp.transactionID) := by
  obtain ⟨ok, t₁, rfl, hclear⟩ := Program.run_call Op.stateClear rfl hr
  obtain ⟨rfl, hreply⟩ := Program.run_ret rfl hclear
  exact ⟨ok, rfl, hreply.symm⟩

/-- A run that does anything after `GetSession` has found a session. -/
theorem session_run {p : Call F (Result F)} {next : Except Unit (Option Session) → Call F (Result F)}
    {r₁ r₂ : Result F} (hp : p = .call .getSession next) (herror : next (.error ()) = .ret r₁)
    (hnone : next (.ok none) = .ret r₂) (hr : Run Program.Step p t (.ret r)) {ev : (op : Op F) × Ans op} (hev : ev ∈ t)
    (hne : ev.1 ≠ .getSession) :
    ∃ sess t', t = ⟨.getSession, .ok (some sess)⟩ :: t' ∧ ev ∈ t' ∧
      Run Program.Step (next (.ok (some sess))) t' (.ret r) := by
  obtain ⟨x, t', rfl, hrest⟩ := Program.run_call .getSession hp hr
  have hlater : ev ∈ t' := (List.mem_cons.mp hev).resolve_left fun h => hne (congrArg Sigma.fst h)
  cases x with
  | error e =>
      rw [(Program.run_ret herror hrest).1] at hlater
      cases hlater
  | ok found =>
      cases found with
      | none =>
          rw [(Program.run_ret hnone hrest).1] at hlater
          cases hlater
      | some sess => exact ⟨sess, t', rfl, hlater, hrest⟩

/-- The only deposit of a run is that of step 3, before which the handler has asked for the session and the token. -/
theorem deposit_run (hstep : cs.step = 3) (hr : Run Program.Step (handleAddCreditStep h text cs) t (.ret r))
    {flow : Nat} {token : String} {req : AdminDepositRequest F} {a : Except GatewayErr TransactionResponse}
    (hev : (⟨.adminDeposit flow token req, a⟩ : (op : Op F) × Ans op) ∈ t) :
    req = depositRequest h text cs ∧ ∃ sess s t', t = ⟨.getSession, .ok (some sess)⟩ ::
        ⟨.getValidToken, .ok (token, s)⟩ :: ⟨.adminDeposit cs.flow token (depositRequest h text cs), a⟩ :: t' ∧
      Run Program.Step (afterDeposit sess cs a) t' (.ret r) := by
  obtain ⟨sess, t₁, rfl, hev, hsession⟩ := session_run rfl rfl rfl hr hev nofun
  simp only [hstep] at hsession
  obtain ⟨x, t₂, rfl, htoken⟩ := Program.run_call Op.getValidToken rfl hsession
  cases x with
  | error e =>
      obtain ⟨rfl, _⟩ := Program.run_ret rfl htoken
      simp at hev
  | ok found =>
      obtain ⟨x, t₃, rfl, hrest⟩ :=
        Program.run_call (Op.adminDeposit cs.flow found.1 (depositRequest h text cs)) rfl htoken
      have hrest : Run Program.Step (afterDeposit sess cs x) t₃ (.ret r) := hrest
      have hnone : (⟨.adminDeposit flow token req, a⟩ : (op : Op F) × Ans op) ∉ t₃ := by
        cases x with
        | error e => simp [(afterDeposit_error hrest).1]
        | ok resp =>
            obtain ⟨ok, rfl, _⟩ := afterDeposit_ok hrest
            simp
      simp only [List.mem_cons, hnone, or_false] at hev
      rcases hev with hev | hev
      · cases hev
      · cases hev
        exact ⟨rfl, sess, found.2, t₃, rfl, hrest⟩

/-- Step 3 makes a deposit, and the gateway answers it. -/
theorem run_deposit (hstep : cs.step = 3) (sess : Session) (token : String) (resp : TransactionResponse) :
    Run Program.Step (handleAddCreditStep h text cs)
      [⟨.getSession, .ok (some sess)⟩, ⟨.getValidToken, .ok (token, some sess)⟩,
        ⟨.adminDeposit cs.flow token (depositRequest h text cs), .ok resp⟩, ⟨.stateClear, true⟩]
      (.ret (some (.addCreditSuccess sess.lang (cs.data.get "amount") (cs.data.get "currency")
        resp.transactionID))) := by
  have h₁ : Run Program.Step (handleAddCreditStep h text cs) _ _ := .single (.of_call rfl (.ok (some sess)))
  simp only [hstep] at h₁
  have h₂ := h₁.snoc (.of_call rfl (.ok (token, some sess)))
  have h₃ := h₂.snoc (.of_call rfl (.ok resp))
  exact h₃.snoc (.of_call rfl (show Ans Op.stateClear from true))

/-! ## What the user is told -/

/-- The user is told that the deposit was made. -/
def Reports (r : Result F) : Prop :=
  ∃ lang amount currency transactionID, r = some (.addCreditSuccess lang amount currency transactionID)

/-- The handler clears the conversation state. -/
def Clears (t : List ((op : Op F) × Ans op)) : Prop := ∃ ok : Bool, ⟨.stateClear, ok⟩ ∈ t

/-- The handler leaves the conversation state as it is. -/
def Untouched (t : List ((op : Op F) × Ans op)) : Prop := ∀ ev ∈ t, ev.1 ≠ .stateClear ∧ ∀ cs, ev.1 ≠ .stateSet cs

/-- A deposit is reported, and its conversation ends, exactly when the gateway says that it has succeeded. -/
def ReportsRightly (t : List ((op : Op F) × Ans op)) (r : Result F) (resp : Option TransactionResponse) : Prop :=
  (Reports r ∧ Clears t ↔ resp.any TransactionResponse.success = true) ∧
    (resp.any TransactionResponse.success = false → Untouched t)

theorem not_reports_gatewayFailure (lang : String) (e : GatewayErr) :
    ¬ Reports (some (gatewayFailure lang e) : Result F) := by
  rintro ⟨_, _, _, _, hreply⟩
  cases e with
  | status code => cases hreply
  | other => cases hreply

/-- A response is taken for a success, whatever it says. -/
theorem reports_of_deposit (hstep : cs.step = 3) (hr : Run Program.Step (handleAddCreditStep h text cs) t (.ret r))
    {flow : Nat} {token : String} {req : AdminDepositRequest F} {a : Except GatewayErr TransactionResponse}
    (hev : (⟨.adminDeposit flow token req, a⟩ : (op : Op F) × Ans op) ∈ t) :
    (a.toOption.isSome → Reports r ∧ Clears t) ∧ (a.toOption = none → ¬ Reports r ∧ Untouched t) := by
  obtain ⟨_, sess, s, t', rfl, hrest⟩ := deposit_run hstep hr hev
  cases a with
  | error e =>
      obtain ⟨rfl, rfl⟩ := afterDeposit_error hrest
      refine ⟨nofun, fun _ => ⟨not_reports_gatewayFailure _ e, ?_⟩⟩
      simp [Untouched]
  | ok resp =>
      obtain ⟨ok, rfl, rfl⟩ := afterDeposit_ok hrest
      refine ⟨fun _ => ⟨⟨_, _, _, _, rfl⟩, ok, by simp⟩, nofun⟩

/-! ## The amount -/

/-- What step 2 stores when it accepts the text. -/
theorem amount_run (hstep : cs.step = 2) (hr : Run Program.Step (handleAddCreditStep h text cs) t (.ret r)) {ok : Bool}
    (hev : (⟨.stateSet cs', ok⟩ : (op : Op F) × Ans op) ∈ t) :
    ∃ first second, fields (trimSpace text) = [first, second] ∧ (h.parseFloat first).2 = true ∧
      h.leZero (h.parseFloat first).1 = false ∧
      cs' = cs.withAmount (h.formatFixed2 (h.parseFloat first).1) (h.toUpper second) := by
  obtain ⟨sess, t₁, rfl, hev, hsession⟩ := session_run rfl rfl rfl hr hev nofun
  simp only [hstep, Program.ret_bind, Int.reduceEq, ↓reduceIte] at hsession
  split at hsession
  next first second hfields =>
    split at hsession
    next =>
      obtain ⟨rfl, _⟩ := Program.run_ret rfl hsession
      simp at hev
    next hvalid =>
      obtain ⟨x, t₂, rfl, hset⟩ := Program.run_call
        (Op.stateSet (cs.withAmount (h.formatFixed2 (h.parseFloat first).1) (h.toUpper second))) rfl hsession
      obtain ⟨rfl, _⟩ := Program.run_ret rfl hset
      rw [Bool.not_eq_true, Bool.or_eq_false_iff, Bool.not_eq_false'] at hvalid
      cases List.mem_singleton.mp hev
      exact ⟨first, second, hfields, hvalid.1, hvalid.2, rfl⟩
  next =>
    obtain ⟨rfl, _⟩ := Program.run_ret rfl hsession
    simp at hev

/-- Step 2 accepts the text and stores the amount. -/
theorem run_amount (hstep : cs.step = 2) {first second : String} (hfields : fields (trimSpace text) = [first, second])
    (hok : (h.parseFloat first).2 = true) (hpos : h.leZero (h.parseFloat first).1 = false) (sess : Session)
    (ok : Bool) :
    Run Program.Step (handleAddCreditStep h text cs)
      [⟨.getSession, .ok (some sess)⟩,
        ⟨.stateSet (cs.withAmount (h.formatFixed2 (h.parseFloat first).1) (h.toUpper second)), ok⟩]
      (.ret (some (.addCreditPromptNote sess.lang))) := by
  have h₁ : Run Program.Step (handleAddCreditStep h text cs) _ _ := .single (.of_call rfl (.ok (some sess)))
  simp only [hstep, hfields, hok, hpos, Program.ret_bind, Int.reduceEq, Bool.not_true, Bool.or_false,
    Bool.false_eq_true, ↓reduceIte] at h₁
  exact h₁.snoc (.of_call rfl (show Ans (Op.stateSet _) from ok))

/-- The request of step 3 has the number that the stored text is read as. -/
theorem depositRequest_amount (h : HandlerSet F) (text : String) (cs : ConversationState) (amount currency : String) :
    (depositRequest h text (cs.withAmount amount currency)).amount = (h.parseFloat amount).1 := by
  have hget : (cs.withAmount amount currency).data.get "amount" = amount := by
    simp [ConversationState.withAmount, Data.get, Data.put, List.lookup_cons]
  rw [depositRequest, hget]

end Gopkg.Telegram
