import Gopkg.Lts.Program
import Gopkg.Telegram.State
import Gopkg.Telegram.Text

/-!
# Handlers of the conversation commands

`communication/telegram/bot/handlers`: every handler that reads or writes the conversation state of one
user. Redis, the session manager and the gateway are operations whose answers come from outside; the
last thing a handler does is to send its reply. The log lines and the conversation ingest, whose results
the handlers drop, are left out.
-/

namespace Gopkg.Telegram

open Lts

/-- The fields of `HandlerSet` and of the partner's bot that the handlers read; the services are
operations. -/
structure HandlerSet (F : Type) extends GoText F where
  partnerID : String
  -- Whether the bot has a support handler.
  supported : Bool

structure Session where
  lang : String
  userID : String
  deriving DecidableEq, Repr

/-- An error of the gateway client: a `*GatewayError` with its status code, or another error. -/
inductive GatewayErr where
  | status (code : Int)
  | other
  deriving DecidableEq, Repr

structure Currency (F : Type) where
  code : String
  name : String
  exchangeRate : F
  deriving DecidableEq, Repr

structure AdminDepositRequest (F : Type) where
  userID : String
  amount : F
  currency : String
  note : String
  deriving DecidableEq, Repr

structure TransactionResponse where
  success : Bool
  transactionID : String
  message : String
  deriving DecidableEq, Repr

structure AIRequest where
  userID : String
  partnerID : String
  message : String
  conversationID : String
  language : String
  channel : String
  deriving DecidableEq, Repr

structure AIResponse where
  success : Bool
  conversationID : String
  responseMessage : String
  suggestions : List String
  deriving DecidableEq, Repr

/-- One call of a handler to Redis, to the session manager or to the gateway. -/
inductive Op (F : Type) where
  | stateGet
  | stateSet (cs : ConversationState)
  | stateClear
  | getSession
  | getValidToken
  | newUUID
  | replyToTicket
  | getCurrencyList (token : String)
  | adminUpdateCurrency (token code : String) (exchangeRate : F)
  | adminDeposit (flow : Nat) (token : String) (req : AdminDepositRequest F)
  | askAI (token : String) (req : AIRequest)

/-- The answers. `Get`, `GetSession` and `GetValidToken` fail or find `nil`; the `Bool` of `Set` and
`Clear` says whether the error is nil. -/
@[reducible] def Ans {F : Type} : Op F → Type
  | .stateGet => Except Unit (Option ConversationState)
  | .stateSet _ => Bool
  | .stateClear => Bool
  | .getSession => Except Unit (Option Session)
  | .getValidToken => Except Unit (String × Option Session)
  | .newUUID => String
  | .replyToTicket => Bool
  | .getCurrencyList _ => Except GatewayErr (List (Currency F))
  | .adminUpdateCurrency _ _ _ => Except GatewayErr Unit
  | .adminDeposit _ _ _ => Except GatewayErr TransactionResponse
  | .askAI _ _ => Except GatewayErr AIResponse

inductive Reply (F : Type) where
  | notAuthenticated (lang : String)
  | invalidInput (lang : String)
  | errorFromStatus (lang : String) (code : Int)
  | serviceUnavailable (lang : String)
  | genericError (lang : String)
  | cancelled (lang : String)
  | setRatePromptCurrency (lang : String) (currencies : List (Currency F))
  | setRatePromptRate (lang code : String)
  | setRateSuccess (lang code : String) (rate : F)
  | addCreditPromptUserID (lang : String)
  | addCreditPromptAmount (lang : String)
  | addCreditPromptNote (lang : String)
  | addCreditSuccess (lang amount currency transactionID : String)
  | aiEntered (lang : String)
  -- The message, or the text of `genericError` when it is empty, and the suggestions as hints.
  | aiAnswer (lang message : String) (suggestions : List String)
  deriving DecidableEq, Repr

abbrev Call (F : Type) := Program (Op F) Ans

abbrev Result (F : Type) := Option (Reply F)

variable {F : Type}

def stateGet : Call F (Except Unit (Option ConversationState)) := .perform Op.stateGet
def stateSet (cs : ConversationState) : Call F Bool := .perform (Op.stateSet cs)
def stateClear : Call F Bool := .perform Op.stateClear
def getSession : Call F (Except Unit (Option Session)) := .perform Op.getSession
def getValidToken : Call F (Except Unit (String × Option Session)) := .perform Op.getValidToken
def newUUID : Call F String := .perform Op.newUUID
def replyToTicket : Call F Bool := .perform Op.replyToTicket
def getCurrencyList (token : String) : Call F (Except GatewayErr (List (Currency F))) :=
  .perform (Op.getCurrencyList token)
def adminUpdateCurrency (token code : String) (exchangeRate : F) : Call F (Except GatewayErr Unit) :=
  .perform (Op.adminUpdateCurrency token code exchangeRate)
def adminDeposit (flow : Nat) (token : String) (req : AdminDepositRequest F) :
    Call F (Except GatewayErr TransactionResponse) :=
  .perform (Op.adminDeposit flow token req)
def askAI (token : String) (req : AIRequest) : Call F (Except GatewayErr AIResponse) :=
  .perform (Op.askAI token req)

def gatewayFailure (lang : String) : GatewayErr → Reply F
  | .status code => .errorFromStatus lang code
  | .other => .serviceUnavailable lang

/-! ## `/setrate` -/

def startSetRate (flow : Nat) : Call F (Result F) := do
  match ← getValidToken with
  | .ok (token, some sess) =>
      match ← getCurrencyList token with
      | .error e => return some (gatewayFailure sess.lang e)
      | .ok currencies =>
          let _ ← stateSet { command := .setrate, step := 1, data := [], flow := flow }
          return some (.setRatePromptCurrency sess.lang currencies)
  | _ => return some (.notAuthenticated "en")

def handleSetRateStep (h : HandlerSet F) (text : String) (cs : ConversationState) : Call F (Result F) := do
  let text := trimSpace text
  match ← getSession with
  | .ok (some sess) =>
      if cs.step = 1 then
        let code := h.toUpper text
        if code.utf8ByteSize ≠ 3 then return some (.invalidInput sess.lang)
        else
          let _ ← stateSet { cs with data := cs.data.put "currency" code, step := 2 }
          return some (.setRatePromptRate sess.lang code)
      else if cs.step = 2 then
        let (rate, ok) := h.parseFloat text
        if !ok || h.leZero rate then return some (.invalidInput sess.lang)
        else
          match ← getValidToken with
          | .error _ => return some (.errorFromStatus sess.lang 401)
          | .ok (token, _) =>
              let code := cs.data.get "currency"
              match ← adminUpdateCurrency token code rate with
              | .error e => return some (gatewayFailure sess.lang e)
              | .ok _ =>
                  let _ ← stateClear
                  return some (.setRateSuccess sess.lang code rate)
      else return none
  | _ => return some (.notAuthenticated "en")

/-! ## `/addcredit` -/

def startAddCredit (flow : Nat) : Call F (Result F) := do
  match ← getSession with
  | .ok (some sess) =>
      let _ ← stateSet { command := .addcredit, step := 1, data := [], flow := flow }
      return some (.addCreditPromptUserID sess.lang)
  | _ => return some (.notAuthenticated "en")

def handleAddCreditStep (h : HandlerSet F) (text : String) (cs : ConversationState) : Call F (Result F) := do
  let text := trimSpace text
  match ← getSession with
  | .ok (some sess) =>
      if cs.step = 1 then
        let _ ← stateSet { cs with data := cs.data.put "user_id" text, step := 2 }
        return some (.addCreditPromptAmount sess.lang)
      else if cs.step = 2 then
        match fields text with
        | [first, second] =>
            let (amount, ok) := h.parseFloat first
            if !ok || h.leZero amount then return some (.invalidInput sess.lang)
            else
              let currency := h.toUpper second
              let data := (cs.data.put "amount" (h.formatFixed2 amount)).put "currency" currency
              let _ ← stateSet { cs with data := data, step := 3 }
              return some (.addCreditPromptNote sess.lang)
        | _ => return some (.invalidInput sess.lang)
      else if cs.step = 3 then
        let note := if text = "-" then "" else text
        match ← getValidToken with
        | .error _ => return some (.errorFromStatus sess.lang 401)
        | .ok (token, _) =>
            let (amount, _) := h.parseFloat (cs.data.get "amount")
            let req : AdminDepositRequest F :=
              { userID := cs.data.get "user_id", amount, currency := cs.data.get "currency", note }
            match ← adminDeposit cs.flow token req with
            | .error e => return some (gatewayFailure sess.lang e)
            | .ok resp =>
                let _ ← stateClear
                return some (.addCreditSuccess sess.lang (cs.data.get "amount") (cs.data.get "currency")
                  resp.transactionID)
      else return none
  | _ => return some (.notAuthenticated "en")

/-! ## `/ai` -/

def getAIConversationID : Call F String := do
  match ← stateGet with
  | .ok (some cs) => return cs.data.get "ai_conversation_id"
  | _ => return ""

def storeAIConversationID (flow : Nat) (convID : String) : Call F Unit := do
  match ← stateGet with
  | .ok (some cs) =>
      let _ ← stateSet { cs with data := cs.data.put "ai_conversation_id" convID }
  | _ =>
      let _ ← stateSet { command := .ai, step := 0, data := [("ai_conversation_id", convID)], flow := flow }

def answerAI (h : HandlerSet F) (flow : Nat) (text token : String) (sess : Session) (convID : String) :
    Call F (Result F) := do
  let msg := if hasPrefix text "/ai" then trimSpace (trimPrefix text "/ai") else text
  let req : AIRequest :=
    { userID := sess.userID, partnerID := h.partnerID, message := msg, conversationID := convID,
      language := sess.lang, channel := "AI_CHANNEL_TELEGRAM" }
  match ← askAI token req with
  | .error _ => return some (.serviceUnavailable sess.lang)
  | .ok resp =>
      if !resp.success then return some (.genericError sess.lang)
      else if resp.conversationID ≠ "" then
        storeAIConversationID flow resp.conversationID
        return some (.aiAnswer sess.lang resp.responseMessage resp.suggestions)
      else return some (.aiAnswer sess.lang resp.responseMessage resp.suggestions)

def handleAIMessage (h : HandlerSet F) (flow : Nat) (text : String) : Call F (Result F) := do
  match ← getValidToken with
  | .ok (token, some sess) =>
      let convID ← getAIConversationID
      if convID = "" then
        let convID ← newUUID
        storeAIConversationID flow convID
        answerAI h flow text token sess convID
      else answerAI h flow text token sess convID
  | _ => return some (.notAuthenticated "en")

def handleAI (h : HandlerSet F) (flow : Nat) (text : String) : Call F (Result F) := do
  match ← getSession with
  | .ok (some sess) =>
      let args := trimSpace (trimPrefix text "/ai")
      if args ≠ "" then
        storeAIConversationID flow (← newUUID)
        handleAIMessage h flow text
      else
        let _ ← stateSet { command := .ai, step := 0, data := [], flow := flow }
        return some (.aiEntered sess.lang)
  | _ => return some (.notAuthenticated "en")

/-! ## `/cancel` and free text -/

def handleCancel : Call F (Result F) := do
  let _ ← stateClear
  match ← getSession with
  | .ok (some sess) => return some (.cancelled sess.lang)
  | _ => return some (.cancelled "en")

def handleText (h : HandlerSet F) (flow : Nat) (text : String) : Call F (Result F) := do
  match ← stateGet with
  | .ok (some cs) =>
      match cs.command with
      | .setrate => handleSetRateStep h text cs
      | .addcredit => handleAddCreditStep h text cs
      | .ai => handleAIMessage h flow text
      | .other _ =>
          let _ ← stateClear
          return none
  | _ =>
      match ← getSession with
      | .ok (some _) => return none
      | _ => return some (.notAuthenticated "en")

/-- `PartnerBot.handleTextWithSupport`: a text that is not a reply goes to the active conversation first.
The ticket replies do not touch the conversation state. -/
def handleTextWithSupport (h : HandlerSet F) (flow : Nat) (isReplyToMessage : Bool) (text : String) :
    Call F (Result F) := do
  let active ← if isReplyToMessage then pure false else do
    match ← stateGet with
    | .ok (some cs) => pure (decide (cs.command ≠ .other ""))
    | _ => pure false
  if active then handleText h flow text
  else if h.supported then
    if ← replyToTicket then return none
    else handleText h flow text
  else handleText h flow text

/-- What the user sends. The inline buttons start the same handlers as the commands. -/
inductive Incoming where
  | text (isReplyToMessage : Bool) (t : String)
  | addcredit
  | setrate
  | ai (t : String)
  | cancel
  deriving DecidableEq, Repr

/-- The handler of a message. `flow` marks the states it creates. -/
def handler (h : HandlerSet F) (flow : Nat) : Incoming → Call F (Result F)
  | .text isReplyToMessage t => handleTextWithSupport h flow isReplyToMessage t
  | .addcredit => startAddCredit flow
  | .setrate => startSetRate flow
  | .ai t => handleAI h flow t
  | .cancel => handleCancel

end Gopkg.Telegram
