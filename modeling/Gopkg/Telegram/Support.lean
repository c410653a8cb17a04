import Gopkg.Digits.Numeral
import Gopkg.Lts.Alone
import Gopkg.Telegram.Session

/-!
# Support tickets

`communication/telegram/bot/support` and `handlers/support.go`. Redis holds the chat of each agent, the ticket that a
message is about, and the active ticket of each chat, which the texts of its agent go to. The log lines and the list of
`/tickets` are left out.
-/

namespace Gopkg.Telegram.Support

open Lts Auth

/-- What Redis holds under each key. -/
abbrev Redis := String → Option String

/-- The fields that are read of the events on tickets and on messages. -/
structure SupportEvent where
  ticketID : String
  partnerID : String
  agentID : String
  deriving DecidableEq, Repr

/-- The calls to Redis, to the session manager, to the gateway and to the bot. -/
inductive Op where
  | redisGet (key : String)
  | redisSet (key value : String)
  | redisDel (key : String)
  | redisScan (pattern : String)
  | getValidToken (partnerID : String) (telegramID : Int)
  | updateTicketStatus (token ticketID status : String)
  | assignTicket (token ticketID : String)
  | sendAgentMessage (token ticketID content : String)
  | sendTicketNotification (partnerID : String) (chatID : Int) (event : SupportEvent) (isAcceptable : Bool)
  | sendCustomerReplyNotification (partnerID : String) (chatID : Int) (event : SupportEvent) (isAcceptable : Bool)
  deriving DecidableEq

/-- A `Bool` says whether the error is nil. A scan yields keys, and then its error. -/
abbrev Ans : Op → Type
  | .redisGet _ => Except Unit String
  | .redisSet _ _ | .redisDel _ => Bool
  | .redisScan _ => List String × Bool
  | .getValidToken _ _ => Except Unit (String × Option Session)
  | .updateTicketStatus _ _ _ | .assignTicket _ _ | .sendAgentMessage _ _ _ => Bool
  | .sendTicketNotification _ _ _ _ | .sendCustomerReplyNotification _ _ _ _ => Except Unit Int

abbrev Call := Program Op Ans

def perform (op : Op) : Call (Ans op) := .perform op

/-! ## `AgentRegistry` -/

def agentKey (partnerID userID : String) : String := s!"tgbot:agent:{partnerID}:{userID}"

def ticketMessageKey (partnerID : String) (messageID : Int) : String := s!"tgbot:ticket_msg:{partnerID}:{messageID}"

def activeTicketKey (partnerID : String) (chatID : Int) : String := s!"tgbot:active_ticket:{partnerID}:{chatID}"

def getAgentChatID (partnerID userID : String) : Call (Except Unit Int) := do
  match ← perform (.redisGet (agentKey partnerID userID)) with
  | .error e => return .error e
  | .ok val =>
      match Digits.parseInt val with
      | none => return .error ()
      | some chatID => return .ok chatID

/-- The loop of `GetAllAgentChatIDs` over the keys of the scan. -/
def readChatIDs : List String → Call (List Int)
  | [] => return []
  | key :: keys => do
      match ← perform (.redisGet key) with
      | .error _ => readChatIDs keys
      | .ok val =>
          match Digits.parseInt val with
          | none => readChatIDs keys
          | some chatID => return chatID :: (← readChatIDs keys)

def getAllAgentChatIDs (partnerID : String) : Call (Except Unit (List Int)) := do
  let (keys, ok) ← perform (.redisScan s!"tgbot:agent:{partnerID}:*")
  let chatIDs ← readChatIDs keys
  if ok then return .ok chatIDs else return .error ()

def storeTicketMessage (partnerID : String) (messageID : Int) (ticketID : String) : Call Bool :=
  perform (.redisSet (ticketMessageKey partnerID messageID) ticketID)

def getTicketByMessage (partnerID : String) (messageID : Int) : Call (Except Unit String) :=
  perform (.redisGet (ticketMessageKey partnerID messageID))

def setActiveTicket (partnerID : String) (chatID : Int) (ticketID : String) : Call Bool :=
  perform (.redisSet (activeTicketKey partnerID chatID) ticketID)

def getActiveTicket (partnerID : String) (chatID : Int) : Call (Except Unit String) :=
  perform (.redisGet (activeTicketKey partnerID chatID))

def clearActiveTicket (partnerID : String) (chatID : Int) : Call Bool :=
  perform (.redisDel (activeTicketKey partnerID chatID))

/-! ## Handlers -/

inductive Reply where
  | notAuthenticated
  | noActiveTicketToResolve (lang : String)
  | genericError (lang : String)
  | ticketResolvedChatEnded (lang : String)
  | callbackNotAuthenticated
  | callbackInvalidTicket
  | ticketAlreadyClaimed (lang : String)
  | ticketAssigned (lang ticketID : String)
  | callbackResolveFailed
  | ticketResolved (lang ticketID : String)
  | noActiveTicket (lang : String)
  | replySent (lang : String)
  deriving DecidableEq, Repr

variable (partnerID : String) (senderID : Int)

/-- `/resolve` from the ticket on. -/
def resolveTicket (token : String) (sess : Session) (ticketID : String) : Call Reply := do
  if ← perform (.updateTicketStatus token ticketID "resolved") then
    let _ ← clearActiveTicket partnerID senderID
    return .ticketResolvedChatEnded sess.lang
  else return .genericError sess.lang

def handleResolveCommand (args : List String) : Call Reply := do
  match ← perform (.getValidToken partnerID senderID) with
  | .ok (token, some sess) =>
      match args with
      | ticketID :: _ => resolveTicket partnerID senderID token sess ticketID
      | [] =>
          match ← getActiveTicket partnerID senderID with
          | .error _ => return .noActiveTicketToResolve sess.lang
          | .ok ticketID => resolveTicket partnerID senderID token sess ticketID
  | _ => return .notAuthenticated

/-- `data` is the ticket of the button, and `messageID` the message it is under, if there is one. -/
def handleAcceptCallback (data : String) (messageID : Option Int) : Call Reply := do
  match ← perform (.getValidToken partnerID senderID) with
  | .ok (token, some sess) =>
      if data = "" then return .callbackInvalidTicket
      else if ← perform (.assignTicket token data) then
        let _ ← setActiveTicket partnerID senderID data
        match messageID with
        | some messageID =>
            let _ ← storeTicketMessage partnerID messageID data
            return .ticketAssigned sess.lang data
        | none => return .ticketAssigned sess.lang data
      else return .ticketAlreadyClaimed sess.lang
  | _ => return .callbackNotAuthenticated

def handleResolveCallback (data : String) : Call Reply := do
  match ← perform (.getValidToken partnerID senderID) with
  | .ok (token, some sess) =>
      if data = "" then return .callbackInvalidTicket
      else if ← perform (.updateTicketStatus token data "resolved") then
        let _ ← clearActiveTicket partnerID senderID
        return .ticketResolved sess.lang data
      else return .callbackResolveFailed
  | _ => return .callbackNotAuthenticated

/-- A message with its text, and the message it is a reply to. -/
structure Message where
  id : Int
  text : String
  replyTo : Option Int
  deriving DecidableEq, Repr

/-- `sess.IsAdmin`, or the role of an agent. -/
def isAgent (sess : Session) : Bool :=
  sess.roles.contains "CUSTOMER_SUPPORT" || (sess.userType == "admin" || sess.userType == "superadmin")

/-- The ticket that a text is for: that of the message it replies to, or the active one. -/
def ticketOf (msg : Message) : Call (Except Unit String) := do
  let ticketID ← match msg.replyTo with
    | none => pure ""
    | some replyTo => do
        match ← getTicketByMessage partnerID replyTo with
        | .error _ => pure ""
        | .ok ticketID => pure ticketID
  if ticketID = "" then getActiveTicket partnerID senderID else return .ok ticketID

/-- Whether the text is handled, and the reply. -/
def handleReplyToTicket (msg : Message) : Call (Option Reply) := do
  match ← ticketOf partnerID senderID msg with
  | .error _ =>
      match ← perform (.getValidToken partnerID senderID) with
      | .ok (_, some sess) => if isAgent sess then return some (.noActiveTicket sess.lang) else return none
      | _ => return none
  | .ok ticketID =>
      match ← perform (.getValidToken partnerID senderID) with
      | .ok (token, some sess) =>
          if ← perform (.sendAgentMessage token ticketID msg.text) then
            let _ ← storeTicketMessage partnerID msg.id ticketID
            return some (.replySent sess.lang)
          else return some (.genericError sess.lang)
      | _ => return some .notAuthenticated

/-! ## `Subscriber` -/

/-- A notification of the bot: what is sent to a chat, with or without the button to accept the ticket. -/
abbrev Notification := (chatID : Int) → (isAcceptable : Bool) → Call (Except Unit Int)

/-- An event on a ticket that has an agent: the agent is notified, and the ticket becomes active in their chat. -/
def notifyAgent (send : Notification) (event : SupportEvent) : Call Unit := do
  match ← getAgentChatID event.partnerID event.agentID with
  | .error _ => return
  | .ok chatID =>
      match ← send chatID false with
      | .error _ => return
      | .ok msgID =>
          let _ ← storeTicketMessage event.partnerID msgID event.ticketID
          let _ ← setActiveTicket event.partnerID chatID event.ticketID

/-- The loop over all agents. -/
def broadcast (send : Notification) (event : SupportEvent) : List Int → Call Unit
  | [] => return
  | chatID :: chatIDs => do
      match ← send chatID true with
      | .error _ => broadcast send event chatIDs
      | .ok msgID =>
          let _ ← storeTicketMessage event.partnerID msgID event.ticketID
          broadcast send event chatIDs

/-- An event that cannot be decoded is dropped. -/
def handleTicketCreated : Option SupportEvent → Call Unit
  | none => return
  | some event => do
      let send : Notification := fun chatID isAcceptable =>
        perform (.sendTicketNotification event.partnerID chatID event isAcceptable)
      if event.partnerID = "" then return
      else if event.agentID ≠ "" then notifyAgent send event
      else
        match ← getAllAgentChatIDs event.partnerID with
        | .error _ | .ok [] => return
        | .ok chatIDs => broadcast send event chatIDs

def handleCustomerReply : Option SupportEvent → Call Unit
  | none => return
  | some event => do
      let send : Notification := fun chatID isAcceptable =>
        perform (.sendCustomerReplyNotification event.partnerID chatID event isAcceptable)
      if event.partnerID = "" then return
      else if event.agentID ≠ "" then notifyAgent send event
      else
        let chatIDs := (← getAllAgentChatIDs event.partnerID).toOption.getD []
        broadcast send event chatIDs

/-! ## Runs -/

inductive Request where
  | resolveCommand (partnerID : String) (senderID : Int) (args : List String)
  | acceptCallback (partnerID : String) (senderID : Int) (data : String) (messageID : Option Int)
  | resolveCallback (partnerID : String) (senderID : Int) (data : String)
  | replyToTicket (partnerID : String) (senderID : Int) (msg : Message)
  | ticketCreated (event : Option SupportEvent)
  | customerReply (event : Option SupportEvent)
  deriving DecidableEq, Repr

def handle : Request → Call (Option Reply)
  | .resolveCommand partnerID senderID args => return some (← handleResolveCommand partnerID senderID args)
  | .acceptCallback partnerID senderID data messageID =>
      return some (← handleAcceptCallback partnerID senderID data messageID)
  | .resolveCallback partnerID senderID data => return some (← handleResolveCallback partnerID senderID data)
  | .replyToTicket partnerID senderID msg => handleReplyToTicket partnerID senderID msg
  | .ticketCreated event => do
      handleTicketCreated event
      return none
  | .customerReply event => do
      handleCustomerReply event
      return none

/-- What an operation can be answered, and what it leaves. Redis never fails: a `Get` finds what is there, and a `Set`
or `Del` takes effect. All others may answer anything. -/
def act (rdb : Redis) : (op : Op) → Ans op → Redis → Prop
  | .redisGet key, a, rdb' => a.toOption = rdb key ∧ rdb' = rdb
  | .redisSet key value, _, rdb' => rdb' = Function.update rdb key (some value)
  | .redisDel key, _, rdb' => rdb' = Function.update rdb key none
  | _, _, rdb' => rdb' = rdb

/-- A request that was handled, with the operations of its handler. -/
structure Handled where
  request : Request
  ops : List ((op : Op) × Ans op)

/-- The requests are handled one after the other. -/
inductive Step : Redis → List Handled → Redis → Prop
  | S_Handle {rdb rdb' : Redis} {ops : List ((op : Op) × Ans op)} {reply : Option Reply} (request : Request) :
      Ends act rdb (handle request) ops reply rdb' → Step rdb [⟨request, ops⟩] rdb'

end Gopkg.Telegram.Support
