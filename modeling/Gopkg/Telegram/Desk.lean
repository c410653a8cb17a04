import Gopkg.Lts.Audit
import Gopkg.Redis.Glob
import Gopkg.Telegram.Support

/-!
# The support desk

The handlers of all partners' agents and of the events on tickets run at once, over one Redis. `RegisterAgent` is called
by `HandleStart` of `handlers/start.go`, and `handleTicketRated` is that of `support/subscriber.go`. The texts that the
bot sends back are left out.
-/

namespace Gopkg.Telegram.Support

open Lts Auth

/-- The operations of `Op`, and those of the two handlers that are added here. -/
inductive DeskOp where
  | support (op : Op)
  | authenticate (partnerID : String) (telegramID : Int)
  | sendRatingNotification (partnerID : String) (chatID : Int) (event : SupportEvent)
  deriving DecidableEq

abbrev DeskAns : DeskOp → Type
  | .support op => Ans op
  | .authenticate _ _ => Except Unit Session
  | .sendRatingNotification _ _ _ => Bool

abbrev DeskCall := Program DeskOp DeskAns

def lift {α : Type} : Call α → DeskCall α
  | .ret a => .ret a
  | .call op next => .call (.support op) fun a => lift (next a)

/-! ## Handlers -/

/-- Redis keeps an integer as its numeral. -/
def registerAgent (partnerID userID : String) (telegramChatID : Int) : Call Bool :=
  perform (.redisSet (agentKey partnerID userID) (toString telegramChatID))

def handleStart (partnerID : String) (senderID : Int) : DeskCall Unit := do
  match ← Program.perform (DeskOp.authenticate partnerID senderID) with
  | .error _ => return
  | .ok sess =>
      if sess.roles.contains "CUSTOMER_SUPPORT" then
        let _ ← lift (registerAgent partnerID sess.userID senderID)
      else return

def handleTicketRated : Option SupportEvent → DeskCall Unit
  | none => return
  | some event => do
      if event.agentID = "" ∨ event.partnerID = "" then return
      else
        match ← lift (getAgentChatID event.partnerID event.agentID) with
        | .error _ => return
        | .ok chatID => let _ ← Program.perform (DeskOp.sendRatingNotification event.partnerID chatID event)

inductive Task where
  | start (partnerID : String) (senderID : Int)
  | request (request : Request)
  | ticketRated (event : Option SupportEvent)
  deriving DecidableEq, Repr

def Request.partnerID : Request → String
  | .resolveCommand partnerID _ _ | .acceptCallback partnerID _ _ _ | .resolveCallback partnerID _ _
  | .replyToTicket partnerID _ _ => partnerID
  | .ticketCreated event | .customerReply event => (event.map (·.partnerID)).getD ""

def Task.partnerID : Task → String
  | .start partnerID _ => partnerID
  | .request req => req.partnerID
  | .ticketRated event => (event.map (·.partnerID)).getD ""

def Task.program : Task → DeskCall Unit
  | .start partnerID senderID => handleStart partnerID senderID
  | .request req => do
      let _ ← lift (handle req)
  | .ticketRated event => handleTicketRated event

/-! ## Runs -/

/-- The operations so far, each with its answer and the task it was for. -/
abbrev DeskLog := Log Task DeskOp DeskAns

/-- What an operation can be answered, and what it leaves in Redis. A `Get` may fail. A `Set` or `Del` that fails may
have taken effect all the same. -/
def Answers (rdb : Redis) : (op : DeskOp) → DeskAns op → Redis → Prop
  | .support (.redisGet key), a, rdb' => (∀ value, a = .ok value → rdb key = some value) ∧ rdb' = rdb
  | .support (.redisSet key value), ok, rdb' =>
      rdb' = Function.update rdb key (some value) ∨ ok = false ∧ rdb' = rdb
  | .support (.redisDel key), ok, rdb' => rdb' = Function.update rdb key none ∨ ok = false ∧ rdb' = rdb
  | .support (.redisScan pattern), a, rdb' =>
      (∀ key ∈ a.1, Redis.GlobMatches pattern.toList key.toList) ∧ rdb' = rdb
  | _, _, rdb' => rdb' = rdb

/-- The desk of the partners `ids`. -/
def desk (ids : String → Prop) : Service Redis Task DeskOp DeskAns Unit where
  Start rdb task p rdb' := ids task.partnerID ∧ p = task.program ∧ rdb' = rdb
  Answers := Answers
  Env _ _ := False

def Redis.empty : Redis := fun _ => none

/-- The ID has neither the separator of keys nor a character that has a meaning in a pattern. -/
def PlainID (partnerID : String) : Prop := ∀ c ∈ partnerID.toList, c ≠ ':' ∧ c ∉ Redis.globSpecial

instance (partnerID : String) : Decidable (PlainID partnerID) :=
  List.decidableBAll _ partnerID.toList

/-! ## What a task may do -/

/-- The session manager has given this token for the user. -/
def Granted (log : DeskLog) (partnerID : String) (senderID : Int) (token : String) : Prop :=
  ∃ task sess, (task, ⟨.support (.getValidToken partnerID senderID), .ok (token, some sess)⟩) ∈ log

/-- A user of this chat was authenticated as an agent of the partner. -/
def Registered (log : DeskLog) (partnerID userID : String) (chatID : Int) : Prop :=
  ∃ sess, (.start partnerID chatID, ⟨.authenticate partnerID chatID, .ok sess⟩) ∈ log ∧
    sess.roles.contains "CUSTOMER_SUPPORT" ∧ sess.userID = userID

/-- The ticket of an event. -/
def Task.ticket : Task → Option (String × String)
  | .request (.ticketCreated (some event)) | .request (.customerReply (some event)) =>
      some (event.partnerID, event.ticketID)
  | _ => none

/-- The ticket has come to the desk of the partner: with an event, or with a button and the gateway has assigned it. -/
inductive Introduced (log : DeskLog) : String → String → Prop
  | event {task : Task} {x : (op : DeskOp) × DeskAns op} {partnerID ticketID : String} : (task, x) ∈ log →
      task.ticket = some (partnerID, ticketID) → Introduced log partnerID ticketID
  | accepted {partnerID ticketID token : String} {senderID : Int} {messageID : Option Int} :
      (.request (.acceptCallback partnerID senderID ticketID messageID),
        ⟨.support (.assignTicket token ticketID), true⟩) ∈ log → Introduced log partnerID ticketID

/-- What a key of a partner may hold. -/
inductive Holds (log : DeskLog) (partnerID : String) : String → String → Prop
  | message {messageID : Int} {ticketID : String} : Introduced log partnerID ticketID →
      Holds log partnerID (ticketMessageKey partnerID messageID) ticketID
  | active {chatID : Int} {ticketID : String} : Introduced log partnerID ticketID →
      Holds log partnerID (activeTicketKey partnerID chatID) ticketID
  | agent {userID : String} {chatID : Int} : Registered log partnerID userID chatID →
      Holds log partnerID (agentKey partnerID userID) (toString chatID)

/-- The chat is that of an agent of the event's partner, and of the agent of the ticket unless it can be accepted. -/
def Addressed (log : DeskLog) (event : SupportEvent) (chatID : Int) (isAcceptable : Bool) : Prop :=
  ∃ userID, Registered log event.partnerID userID chatID ∧ (isAcceptable = false → userID = event.agentID)

/-- The operation is one that the task may perform after what is in the log. -/
def Lawful (log : DeskLog) (task : Task) : DeskOp → Prop
  | .support (.redisGet _) | .support (.redisScan _) => True
  | .support (.redisSet key value) => Holds log task.partnerID key value
  | .support (.redisDel key) => ∃ chatID, key = activeTicketKey task.partnerID chatID
  | .support (.getValidToken partnerID _) => partnerID = task.partnerID
  | .support (.updateTicketStatus token ticketID status) => status = "resolved" ∧ ∃ senderID,
      Granted log task.partnerID senderID token ∧
        (task = .request (.resolveCallback task.partnerID senderID ticketID) ∨
          ∃ args, task = .request (.resolveCommand task.partnerID senderID args) ∧
            (args.head? = some ticketID ∨ args = [] ∧ Introduced log task.partnerID ticketID))
  | .support (.assignTicket token ticketID) => ∃ senderID messageID, Granted log task.partnerID senderID token ∧
      task = .request (.acceptCallback task.partnerID senderID ticketID messageID)
  | .support (.sendAgentMessage token ticketID content) => ∃ senderID msg,
      Granted log task.partnerID senderID token ∧ Introduced log task.partnerID ticketID ∧
        task = .request (.replyToTicket task.partnerID senderID msg) ∧ content = msg.text
  | .support (.sendTicketNotification partnerID chatID event isAcceptable) =>
      task = .request (.ticketCreated (some event)) ∧ partnerID = event.partnerID ∧
        Addressed log event chatID isAcceptable
  | .support (.sendCustomerReplyNotification partnerID chatID event isAcceptable) =>
      task = .request (.customerReply (some event)) ∧ partnerID = event.partnerID ∧
        Addressed log event chatID isAcceptable
  | .authenticate partnerID chatID => task = .start partnerID chatID
  | .sendRatingNotification partnerID chatID event =>
      task = .ticketRated (some event) ∧ partnerID = event.partnerID ∧ Addressed log event chatID false

end Gopkg.Telegram.Support
