import Gopkg.Telegram.World

/-!
# What a handler does with a conversation

Every handler writes an `/addcredit` state only when it has just read one of that conversation, except for
the handler that starts the conversation, whose write is its last operation. A deposit is for the
conversation in hand, and after an answered deposit the handler clears the state and returns.
-/

namespace Gopkg.Telegram

open Lts

variable {F : Type} {h : HandlerSet F} {own flow : Nat} {read : Option Nat} {text : String}

def OpRule (own : Nat) (read : Option Nat) : (op : Op F) → (Ans op → Call F (Result F)) → Prop
  | .stateSet cs, next => ∀ f, cs.creditFlow = some f →
      read = some f ∨ (f = own ∧ ∀ a, ∃ r, next a = .ret r)
  | .adminDeposit f _ _, next => read = some f ∧
      ∀ resp, ∃ r, next (.ok resp) = .call .stateClear fun _ => .ret r
  | _, _ => True

def Disciplined (own : Nat) (read : Option Nat) : Call F (Result F) → Prop
  | .ret _ => True
  | .call op next => OpRule own read op next ∧ ∀ a, Disciplined own (readAfter read op a) (next a)

theorem disciplined_ret {r : Result F} : Disciplined own read (.ret r) := trivial

theorem disciplined_perform {op : Op F} {k : Ans op → Call F (Result F)} :
    Disciplined own read (Program.perform op >>= k) ↔
      OpRule own read op k ∧ ∀ a, Disciplined own (readAfter read op a) (k a) := Iff.rfl

theorem disciplined_ite {c : Prop} [Decidable c] {p q : Call F (Result F)} (hp : Disciplined own read p)
    (hq : Disciplined own read q) : Disciplined own read (if c then p else q) := by
  split
  · exact hp
  · exact hq

theorem creditFlow_ne {cs : ConversationState} (hc : cs.command ≠ .addcredit) : cs.creditFlow = none := by
  simp [ConversationState.creditFlow, hc]

theorem creditFlow_addcredit {cs : ConversationState} (hc : cs.command = .addcredit) :
    cs.creditFlow = some cs.flow := by
  simp [ConversationState.creditFlow, hc]

/-! ## The conversations -/

theorem disciplined_startAddCredit : Disciplined own none (startAddCredit own : Call F (Result F)) := by
  unfold startAddCredit getSession stateSet
  refine disciplined_perform.mpr ⟨trivial, fun a => ?_⟩
  split
  · refine disciplined_perform.mpr ⟨?_, fun _ => disciplined_ret⟩
    intro f hf
    rw [creditFlow_addcredit rfl] at hf
    cases hf
    exact .inr ⟨rfl, fun _ => ⟨_, rfl⟩⟩
  · exact disciplined_ret

theorem disciplined_startSetRate : Disciplined own none (startSetRate own : Call F (Result F)) := by
  unfold startSetRate getValidToken getCurrencyList stateSet
  refine disciplined_perform.mpr ⟨trivial, fun a => ?_⟩
  split
  · refine disciplined_perform.mpr ⟨trivial, fun b => ?_⟩
    split
    · exact disciplined_ret
    · refine disciplined_perform.mpr ⟨?_, fun _ => disciplined_ret⟩
      intro f hf
      rw [creditFlow_ne (by simp)] at hf
      cases hf
  · exact disciplined_ret

/-- Writing back a state that is no `/addcredit` state, or one of the conversation in hand. -/
theorem disciplined_writeBack {cs : ConversationState} {k : Bool → Call F (Result F)}
    (hcs : ∀ f, cs.creditFlow = some f → read = some f) (hk : ∀ a, Disciplined own read (k a)) :
    Disciplined own read (stateSet cs >>= k) :=
  disciplined_perform.mpr ⟨fun f hf => .inl (hcs f hf), hk⟩

theorem disciplined_handleSetRateStep {cs : ConversationState} (hc : cs.command = .setrate) :
    Disciplined own read (handleSetRateStep h text cs) := by
  have hne : cs.command ≠ .addcredit := by simp [hc]
  unfold handleSetRateStep getSession getValidToken adminUpdateCurrency stateClear
  refine disciplined_perform.mpr ⟨trivial, fun a => ?_⟩
  split
  · refine disciplined_ite ?_ (disciplined_ite ?_ disciplined_ret)
    · -- the currency code
      refine disciplined_ite disciplined_ret ?_
      exact disciplined_writeBack (fun f hf => nomatch (creditFlow_ne hne).symm.trans hf)
        fun _ => disciplined_ret
    · -- the rate
      refine disciplined_ite disciplined_ret (disciplined_perform.mpr ⟨trivial, fun b => ?_⟩)
      cases b with
      | error _ => exact disciplined_ret
      | ok t =>
          refine disciplined_perform.mpr ⟨trivial, fun b => ?_⟩
          cases b with
          | error _ => exact disciplined_ret
          | ok _ => exact disciplined_perform.mpr ⟨trivial, fun _ => disciplined_ret⟩
  · exact disciplined_ret

theorem disciplined_handleAddCreditStep {cs : ConversationState} (hc : cs.command = .addcredit) :
    Disciplined own (some cs.flow) (handleAddCreditStep h text cs) := by
  have hset : ∀ (d : Data) (n : Int) (r : Reply F), Disciplined own (some cs.flow)
      (stateSet { cs with data := d, step := n } >>= fun _ => .ret (some r)) := by
    intro d n r
    have hflow : ({ cs with data := d, step := n } : ConversationState).creditFlow = some cs.flow :=
      creditFlow_addcredit hc
    exact disciplined_writeBack (fun f hf => hflow.symm.trans hf) fun _ => disciplined_ret
  unfold handleAddCreditStep getSession getValidToken adminDeposit stateClear
  refine disciplined_perform.mpr ⟨trivial, fun a => ?_⟩
  split
  · refine disciplined_ite ?_ (disciplined_ite ?_ (disciplined_ite ?_ disciplined_ret))
    · -- the user
      exact hset _ _ _
    · -- the amount and the currency
      split
      · exact disciplined_ite disciplined_ret (hset _ _ _)
      · exact disciplined_ret
    · -- the note
      refine disciplined_perform.mpr ⟨trivial, fun b => ?_⟩
      cases b with
      | error _ => exact disciplined_ret
      | ok t =>
          refine disciplined_perform.mpr ⟨⟨rfl, fun resp => ⟨_, rfl⟩⟩, fun b => ?_⟩
          cases b with
          | error _ => exact disciplined_ret
          | ok resp => exact disciplined_perform.mpr ⟨trivial, fun _ => disciplined_ret⟩
  · exact disciplined_ret

/-! ## `/ai` -/

theorem disciplined_storeAIConversationID {convID : String} {k : Unit → Call F (Result F)}
    (hk : ∀ read, Disciplined own read (k ())) :
    Disciplined own read (storeAIConversationID flow convID >>= k) := by
  unfold storeAIConversationID stateGet
  refine disciplined_perform.mpr ⟨trivial, fun a => ?_⟩
  have hfresh : ∀ read, Disciplined own read
      (stateSet ⟨.ai, 0, [("ai_conversation_id", convID)], flow⟩ >>= fun _ => k ()) := fun read =>
    disciplined_writeBack (fun f hf => nomatch (creditFlow_ne (by simp)).symm.trans hf) fun _ => hk _
  rcases a with _ | _ | cs
  · exact hfresh _
  · exact hfresh _
  · exact disciplined_writeBack (fun f hf => hf) fun _ => hk _

theorem disciplined_getAIConversationID {k : String → Call F (Result F)}
    (hk : ∀ read convID, Disciplined own read (k convID)) :
    Disciplined own read (getAIConversationID >>= k) := by
  unfold getAIConversationID stateGet
  refine disciplined_perform.mpr ⟨trivial, fun a => ?_⟩
  rcases a with _ | _ | cs <;> exact hk _ _

theorem disciplined_answerAI {token : String} {sess : Session} {convID : String} :
    Disciplined own read (answerAI h flow text token sess convID) := by
  unfold answerAI askAI
  refine disciplined_perform.mpr ⟨trivial, fun a => ?_⟩
  cases a with
  | error _ => exact disciplined_ret
  | ok resp =>
      refine disciplined_ite disciplined_ret (disciplined_ite ?_ disciplined_ret)
      exact disciplined_storeAIConversationID fun _ => disciplined_ret

theorem disciplined_handleAIMessage : Disciplined own read (handleAIMessage h flow text) := by
  unfold handleAIMessage getValidToken newUUID
  refine disciplined_perform.mpr ⟨trivial, fun a => ?_⟩
  split
  · refine disciplined_getAIConversationID fun read convID => ?_
    refine disciplined_ite (disciplined_perform.mpr ⟨trivial, fun b => ?_⟩) disciplined_answerAI
    exact disciplined_storeAIConversationID fun _ => disciplined_answerAI
  · exact disciplined_ret

theorem disciplined_handleAI : Disciplined own read (handleAI h flow text) := by
  unfold handleAI getSession newUUID
  generalize trimSpace (trimPrefix text "/ai") = args
  refine disciplined_perform.mpr ⟨trivial, fun a => ?_⟩
  split
  · refine disciplined_ite (disciplined_perform.mpr ⟨trivial, fun b => ?_⟩) ?_
    · exact disciplined_storeAIConversationID fun _ => disciplined_handleAIMessage
    · exact disciplined_writeBack (fun f hf => nomatch (creditFlow_ne (by simp)).symm.trans hf)
        fun _ => disciplined_ret
  · exact disciplined_ret

/-! ## Free text -/

theorem disciplined_handleCancel : Disciplined own read (handleCancel : Call F (Result F)) := by
  unfold handleCancel stateClear getSession
  refine disciplined_perform.mpr ⟨trivial, fun _ => disciplined_perform.mpr ⟨trivial, fun a => ?_⟩⟩
  split <;> exact disciplined_ret

theorem disciplined_handleText : Disciplined own read (handleText h flow text) := by
  unfold handleText stateGet getSession stateClear
  refine disciplined_perform.mpr ⟨trivial, fun a => ?_⟩
  split
  · rename_i cs
    split
    · rename_i hc
      exact disciplined_handleSetRateStep hc
    · rename_i hc
      have hread : readAfter read (.stateGet : Op F) (.ok (some cs)) = some cs.flow :=
        creditFlow_addcredit hc
      rw [hread]
      exact disciplined_handleAddCreditStep hc
    · exact disciplined_handleAIMessage
    · exact disciplined_perform.mpr ⟨trivial, fun _ => disciplined_ret⟩
  · refine disciplined_perform.mpr ⟨trivial, fun b => ?_⟩
    split <;> exact disciplined_ret

theorem disciplined_handleTextWithSupport {b : Bool} :
    Disciplined own read (handleTextWithSupport h flow b text) := by
  have hactive : ∀ read (active : Bool), Disciplined own read (if active then handleText h flow text
      else if h.supported then do
        if ← replyToTicket then return none else handleText h flow text
      else handleText h flow text) := by
    intro read active
    refine disciplined_ite disciplined_handleText (disciplined_ite ?_ disciplined_handleText)
    refine disciplined_perform.mpr ⟨trivial, fun b => ?_⟩
    exact disciplined_ite disciplined_ret disciplined_handleText
  unfold handleTextWithSupport stateGet
  cases b with
  | true => exact hactive _ false
  | false =>
      refine disciplined_perform.mpr ⟨trivial, fun a => ?_⟩
      rcases a with _ | _ | cs
      · exact hactive none false
      · exact hactive none false
      · exact hactive cs.creditFlow (decide (cs.command ≠ .other ""))

theorem disciplined_handler (m : Incoming) : Disciplined own none (handler h own m) := by
  cases m with
  | text b t => exact disciplined_handleTextWithSupport
  | addcredit => exact disciplined_startAddCredit
  | setrate => exact disciplined_startSetRate
  | ai t => exact disciplined_handleAI
  | cancel => exact disciplined_handleCancel

end Gopkg.Telegram
