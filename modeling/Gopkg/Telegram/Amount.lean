import Gopkg.Float.Strconv
import Gopkg.Telegram.Lemmas.AddCredit

/-!
# The amount of a deposit

`/addcredit` with Go's own numbers. Step 2 reads the amount that an admin types and keeps it as a text with two places;
step 3 reads that text again for the request to the gateway.
-/

namespace Gopkg.Telegram

open Lts Gopkg.Float

/-- The handlers of a bot, whose amounts are doubles. -/
def handlerSet (toUpper : String → String) (partnerID : String) (supported : Bool) : HandlerSet Float64 where
  parseFloat := parseFloat
  leZero := Float64.leZero
  formatFixed2 := Float64.formatFixed2
  toUpper := toUpper
  partnerID := partnerID
  supported := supported

/-- The text is accepted at step 2, and `amount` is that of the request of step 3. -/
inductive Deposits {F : Type} (h : HandlerSet F) (text : String) : F → Prop
  | D_Steps {cs cs' : ConversationState} {t t' : List ((op : Op F) × Ans op)} {r r' : Result F} {ok : Bool}
      {note token : String} {flow : Nat} {req : AdminDepositRequest F} {a : Except GatewayErr TransactionResponse}
      (hstep : cs.step = 2) (hr : Run Program.Step (handleAddCreditStep h text cs) t (.ret r))
      (hset : ⟨.stateSet cs', ok⟩ ∈ t) (hr' : Run Program.Step (handleAddCreditStep h note cs') t' (.ret r'))
      (hsent : ⟨.adminDeposit flow token req, a⟩ ∈ t') : Deposits h text req.amount

/-- A conversation that waits for the amount. -/
def beforeAmount : ConversationState where
  command := .addcredit
  step := 2
  data := [("user_id", "user-7")]
  flow := 0

/-- The amount of a request is read from the text with two places. -/
theorem deposits_iff {F : Type} {h : HandlerSet F} {text : String} (first second : String)
    (hfields : fields (trimSpace text) = [first, second]) {amount : F} :
    Deposits h text amount ↔ (h.parseFloat first).2 = true ∧ h.leZero (h.parseFloat first).1 = false ∧
      amount = (h.parseFloat (h.formatFixed2 (h.parseFloat first).1)).1 := by
  constructor
  · rintro ⟨hstep, hr, hset, hr', hsent⟩
    obtain ⟨first', second', hfields', hok, hpos, rfl⟩ := amount_run hstep hr hset
    obtain ⟨rfl, rfl⟩ : first = first' ∧ second = second' := by simpa [hfields] using hfields'
    obtain ⟨rfl, _⟩ := deposit_run rfl hr' hsent
    exact ⟨hok, hpos, depositRequest_amount _ _ _ _ _⟩
  · rintro ⟨hok, hpos, rfl⟩
    have hr : Run Program.Step (handleAddCreditStep h text beforeAmount) _ _ :=
      run_amount rfl hfields hok hpos ⟨"en", ""⟩ true
    have hr' : Run Program.Step (handleAddCreditStep h "-" (beforeAmount.withAmount
        (h.formatFixed2 (h.parseFloat first).1) (h.toUpper second))) _ _ :=
      run_deposit rfl ⟨"en", ""⟩ "token" ⟨true, "", ""⟩
    rw [← depositRequest_amount h "-" beforeAmount _ (h.toUpper second)]
    exact .D_Steps rfl hr (List.mem_cons_of_mem _ List.mem_cons_self) hr'
      (List.mem_cons_of_mem _ (List.mem_cons_of_mem _ List.mem_cons_self))

/-- The amount of the request is a number above zero, and it is the double of the text. -/
def SendsTyped (amount : Float64) (text : String) : Prop :=
  (∃ v, amount.value = some v ∧ 0 < v) ∧ amount = (parseFloat text).1

/-- The text denotes a whole number of hundredths. -/
def WholeCents (text : String) : Prop := ∃ (q : ℚ) (n : ℤ), typed text = some q ∧ 100 * q = n

/-- The request is made with the amount that was typed exactly when that amount is a whole number of hundredths. -/
theorem deposit_amount_iff (toUpper : String → String) (partnerID : String) (supported : Bool)
    (text first second : String) (hfields : fields (trimSpace text) = [first, second])
    (hfew : ∀ q, typed first = some q → FewDigits q) (amount : Float64)
    (hd : Deposits (handlerSet toUpper partnerID supported) text amount) :
    SendsTyped amount first ↔ WholeCents first := by
  obtain ⟨hok, hpos, rfl⟩ := (deposits_iff first second hfields).mp hd
  exact reformatted_iff first hok hpos hfew

theorem deposit_amount_iff_typed : ∃ amount, Deposits (handlerSet id "partner" false) "12.50 USD" amount ∧
    SendsTyped amount "12.50" := by
  have htyped : typed "12.50" = some (25 / 2) := by decide +kernel
  have hd : Deposits (handlerSet id "partner" false) "12.50 USD" _ :=
    (deposits_iff "12.50" "USD" (by decide +kernel)).mpr
      ⟨by decide +kernel, by decide +kernel, rfl⟩
  refine ⟨_, hd, (deposit_amount_iff id "partner" false "12.50 USD" "12.50" "USD" (by decide +kernel) ?_ _ hd).mpr ?_⟩
  · intro q hq
    cases htyped.symm.trans hq
    exact ⟨125, -1, by norm_num, by norm_num [abs_of_pos]⟩
  · exact ⟨_, 1250, htyped, by norm_num⟩

/-- A thousandth of a dinar is accepted and sent as zero, and `NaN` is accepted and sent as it is. -/
theorem deposit_amount_lost : Deposits (handlerSet id "partner" false) "0.001 KWD" .zero ∧
    Deposits (handlerSet id "partner" false) "NaN USD" .nan ∧ typed "0.001" = some (1 / 1000) := by
  refine ⟨?_, ?_, by decide +kernel⟩
  · rw [deposits_iff "0.001" "KWD" (by decide +kernel)]
    exact ⟨by decide +kernel, by decide +kernel, by decide +kernel⟩
  · rw [deposits_iff "NaN" "USD" (by decide +kernel)]
    exact ⟨by decide +kernel, by decide +kernel, by decide +kernel⟩

end Gopkg.Telegram
