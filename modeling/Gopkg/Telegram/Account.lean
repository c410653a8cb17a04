import Gopkg.Lts.Audit
import Gopkg.Telegram.Handlers
import Gopkg.Telegram.SessionManager

/-!
# The commands on an account

`handlers/balance.go`, `handlers/bookings.go` and `handlers/start.go`, over the session manager: the commands of all
users of all partners run at once, over one Redis. A message is known by what is filled into it.
-/

namespace Gopkg.Telegram.Account

open Lts Client Auth

structure BalanceResponse where
  balance : String
  currency : String
  deriving DecidableEq, Repr

structure BookingSummary where
  id : String
  reference : String
  status : String
  origin : String
  destination : String
  date : String
  passengers : Int
  deriving DecidableEq, Repr

structure BookingsResponse where
  bookings : List BookingSummary
  deriving DecidableEq, Repr

inductive Reply where
  | notAuthenticated (lang : String)
  | genericError (lang : String)
  | errorFromStatus (lang : String) (statusCode : Int)
  | serviceUnavailable (lang : String)
  | callbackError (lang : String)
  | langChanged (lang : String)
  | welcome (partnerID lang : String) (isAdmin isSupportAgent : Bool)
  | help (partnerID lang : String) (isAdmin isSupportAgent : Bool)
  | balance (lang balance currency : String)
  | noBookings (lang : String)
  | bookings (lang : String) (items : List BookingSummary)
  deriving DecidableEq, Repr

inductive Op where
  -- An operation of the session manager, for a user.
  | session (partnerID : String) (telegramID : Int) (op : SessionManager.Op)
  | getWalletBalance (token currency : String)
  | getUserBookings (token : String)
  | registerAgent (partnerID userID : String) (telegramChatID : Int)
  | send (reply : Reply)

@[reducible] def Ans : Op → Type
  | .session _ _ op => SessionManager.Ans op
  | .getWalletBalance _ _ => Except GatewayErr BalanceResponse
  | .getUserBookings _ => Except GatewayErr BookingsResponse
  | .registerAgent _ _ _ => Option String
  | .send _ => Unit

abbrev Call := Program Op Ans

def getWalletBalance (token currency : String) : Call (Except GatewayErr BalanceResponse) :=
  .perform (Op.getWalletBalance token currency)

def getUserBookings (token : String) : Call (Except GatewayErr BookingsResponse) := .perform (Op.getUserBookings token)

def send (reply : Reply) : Call Unit := .perform (Op.send reply)

/-- A method of the session manager, for a user. -/
def sessions {α : Type} (partnerID : String) (telegramID : Int) : SessionManager.Call α → Call α
  | .ret a => .ret a
  | .call op next => .call (.session partnerID telegramID op) fun a => sessions partnerID telegramID (next a)

/-! ## Handlers -/

def isAdmin (sess : Auth.Session) : Bool := sess.userType == "admin" || sess.userType == "superadmin"

def isSupportAgent (sess : Auth.Session) : Bool := sess.roles.contains "CUSTOMER_SUPPORT"

/-- `HandleUnauthorized`, with the function that it is given. -/
def handleUnauthorized {α : Type} (partnerID : String) (telegramID : Int)
    (fn : String → Call (Except GatewayErr α)) : Call (Option α) := do
  match ← sessions partnerID telegramID SessionManager.authenticate with
  | .error _ => return none
  | .ok sess => return (← fn sess.token).toOption

/-- What the two handlers share that ask the gateway for something of the user. -/
def handleFetch {α : Type} (partnerID : String) (senderID : Int) (fetch : String → Call (Except GatewayErr α))
    (reply : String → α → Reply) : Call Unit := do
  match ← sessions partnerID senderID SessionManager.getValidToken with
  | .error _ | .ok (_, none) => send (.notAuthenticated "en")
  | .ok (token, some sess) =>
      match ← fetch token with
      | .ok resp => send (reply sess.lang resp)
      | .error (.status code) =>
          if code = 401 then
            match ← handleUnauthorized partnerID senderID fetch with
            | none => send (.errorFromStatus sess.lang 401)
            | some resp => send (reply sess.lang resp)
          else send (.errorFromStatus sess.lang code)
      | .error .other => send (.serviceUnavailable sess.lang)

def handleBalance (partnerID : String) (senderID : Int) : Call Unit :=
  handleFetch partnerID senderID (getWalletBalance · "IQD") fun lang resp => .balance lang resp.balance resp.currency

/-- The loop over the bookings, from the index `i` on. -/
def bookingItems (i : Nat) : List BookingSummary → List BookingSummary
  | [] => []
  | b :: bs => b :: if 9 ≤ i then [] else bookingItems (i + 1) bs

def bookingsReply (lang : String) (resp : BookingsResponse) : Reply :=
  if resp.bookings.length = 0 then .noBookings lang else .bookings lang (bookingItems 0 resp.bookings)

def handleMyBookings (partnerID : String) (senderID : Int) : Call Unit :=
  handleFetch partnerID senderID getUserBookings bookingsReply

def handleStart (partnerID : String) (senderID : Int) : Call Unit := do
  match ← sessions partnerID senderID SessionManager.authenticate with
  | .error _ => send (.genericError "en")
  | .ok sess =>
      if isSupportAgent sess then
        let _ ← Program.perform (Op.registerAgent partnerID sess.userID senderID)
      send (.welcome partnerID sess.lang (isAdmin sess) (isSupportAgent sess))

def handleHelp (partnerID : String) (senderID : Int) : Call Unit := do
  match ← sessions partnerID senderID SessionManager.getSession with
  | .error _ | .ok none => send (.notAuthenticated "en")
  | .ok (some sess) => send (.help partnerID sess.lang (isAdmin sess) (isSupportAgent sess))

def handleLangCallback (partnerID : String) (senderID : Int) (lang : String) : Call Unit := do
  match ← sessions partnerID senderID (SessionManager.setLang lang) with
  | some _ => send (.callbackError "en")
  | none => send (.langChanged lang)

/-! ## Runs -/

inductive Kind where
  | start
  | help
  | lang (lang : String)
  | balance
  | myBookings
  deriving DecidableEq, Repr

/-- A command. The number tells those of one user apart. -/
structure Command where
  number : Nat
  partnerID : String
  senderID : Int
  kind : Kind
  deriving DecidableEq, Repr

def Command.program (cmd : Command) : Call Unit :=
  match cmd.kind with
  | .start => handleStart cmd.partnerID cmd.senderID
  | .help => handleHelp cmd.partnerID cmd.senderID
  | .lang lang => handleLangCallback cmd.partnerID cmd.senderID lang
  | .balance => handleBalance cmd.partnerID cmd.senderID
  | .myBookings => handleMyBookings cmd.partnerID cmd.senderID

structure Shared where
  -- Under each key a session, and when the key expires.
  redis : Redis
  now : Int
  commands : Nat

def Shared.init (now : Int) : Shared := ⟨fun _ => none, now, 0⟩

/-- What an operation can be answered. Redis may fail, and the other services may answer anything. -/
def Answers (s : Shared) : (op : Op) → Ans op → Shared → Prop
  | .session partnerID telegramID .get, a, s' =>
      s' = s ∧ ∀ found, a = .ok found → found = (s.redis (sessionKey partnerID telegramID)).map Prod.fst
  | .session partnerID telegramID (.set sess ttl), reply, s' =>
      s' = { s with redis := (s.redis.set (sessionKey partnerID telegramID) sess (s.now + ttl) reply).2 }
  | .session _ _ .clock, a, s' => s' = s ∧ a = s.now
  | _, _, s' => s' = s

/-- The clock goes on, and a key expires. -/
inductive Env : Shared → Shared → Prop
  | advance {s : Shared} (d : Nat) : Env s { s with now := s.now + d }
  | expire {s : Shared} {key : String} {sess : Auth.Session} {expiry : Int} : s.redis key = some (sess, expiry) →
      expiry ≤ s.now → Env s { s with redis := Function.update s.redis key none }

def bots : Service Shared Command Op Ans Unit where
  Start s cmd p s' := cmd.number = s.commands ∧ p = cmd.program ∧ s' = { s with commands := s.commands + 1 }
  Answers := Answers
  Env := Env

/-- The operations so far, each with its answer and the command it was for. -/
abbrev Record := Log Command Op Ans

/-! ## What a command may do -/

/-- The identity service gave this session to the user, up to the language. -/
def Issued (log : Record) (partnerID : String) (telegramID : Int) (sess : Auth.Session) : Prop :=
  ∃ cmd resp r now lang, (cmd, ⟨.session partnerID telegramID .exchange, resp⟩) ∈ log ∧
    exchangeTelegramToken resp = .ok r ∧ (cmd, ⟨.session partnerID telegramID .clock, now⟩) ∈ log ∧
    sess = { newSession r now with lang := lang }

/-- The session was not expired at a time that the command has read, or the command has got it itself. -/
inductive Current (log : Record) (cmd : Command) (sess : Auth.Session) : Prop
  | unexpired {now : Int} : (cmd, ⟨.session cmd.partnerID cmd.senderID .clock, now⟩) ∈ log →
      SessionManager.isExpired sess now = false → Current log cmd sess
  | renewed {resp : Http AuthResponse} {r : AuthResponse} {now : Int} :
      (cmd, ⟨.session cmd.partnerID cmd.senderID .exchange, resp⟩) ∈ log → exchangeTelegramToken resp = .ok r →
      sess = newSession r now → Current log cmd sess

/-- The token is one of the user's own, and current. -/
def Authorised (log : Record) (cmd : Command) (token : String) : Prop :=
  ∃ sess, sess.token = token ∧ Issued log cmd.partnerID cmd.senderID sess ∧ Current log cmd sess

/-- What is shown to a user is the user's own. -/
def Shown (log : Record) (cmd : Command) : Reply → Prop
  | .balance _ balance currency => ∃ token,
      (cmd, ⟨.getWalletBalance token "IQD", .ok ⟨balance, currency⟩⟩) ∈ log ∧ Authorised log cmd token
  | .bookings _ items => ∃ token bookings, (cmd, ⟨.getUserBookings token, .ok ⟨bookings⟩⟩) ∈ log ∧
      Authorised log cmd token ∧ items = bookings.take 10
  | .noBookings _ => ∃ token, (cmd, ⟨.getUserBookings token, .ok ⟨[]⟩⟩) ∈ log ∧ Authorised log cmd token
  | .welcome partnerID lang admin agent | .help partnerID lang admin agent =>
      partnerID = cmd.partnerID ∧ ∃ sess, Issued log cmd.partnerID cmd.senderID sess ∧ lang = sess.lang ∧
        admin = isAdmin sess ∧ agent = isSupportAgent sess
  | _ => True

/-- The operation is one that the command may perform after what is on record. -/
def Lawful (log : Record) (cmd : Command) : Op → Prop
  | .session partnerID telegramID op => partnerID = cmd.partnerID ∧ telegramID = cmd.senderID ∧
      ∀ sess ttl, op = .set sess ttl → Issued log partnerID telegramID sess
  | .getWalletBalance token currency => Authorised log cmd token ∧ currency = "IQD"
  | .getUserBookings token => Authorised log cmd token
  | .registerAgent partnerID userID telegramChatID => partnerID = cmd.partnerID ∧ telegramChatID = cmd.senderID ∧
      ∃ sess, Issued log partnerID telegramChatID sess ∧ isSupportAgent sess ∧ userID = sess.userID
  | .send reply => Shown log cmd reply

end Gopkg.Telegram.Account
