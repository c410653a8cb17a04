import Gopkg.Lts.Audit
import Gopkg.Telegram.InFlight
import Gopkg.Telegram.SessionManager

/-!
# Where the data of a command come from

The handlers of one user's messages, with a record of what they do. A command of several steps collects its data in the
conversation state, which other handlers may overwrite in between with one that they have read before.
-/

namespace Gopkg.Telegram.Provenance

open Lts InFlight

variable {F : Type}

/-- A message, with its place among all messages of the user. -/
structure Sent where
  number : Nat
  message : Incoming
  deriving DecidableEq, Repr

abbrev Record (F : Type) := Log Sent (Op F) Ans

/-- What the handlers read of a session. -/
def seen (sess : Auth.Session) : Session := { lang := sess.lang, userID := sess.userID }

/-- What the handlers read of the results of `GetValidToken`. -/
def shown : Except String (String × Option Auth.Session) → Except Unit (String × Option Session)
  | .error _ => .error ()
  | .ok (token, sess) => .ok (token, sess.map seen)

/-- A token is one that the session manager may return. -/
def Vouched : (op : Op F) → Ans op → Prop
  | .getValidToken, a => ∃ ops r, Run Program.Step Auth.SessionManager.getValidToken ops (.ret r) ∧ a = shown r
  | _, _ => True

def chat (h : HandlerSet F) : Service Shared Sent (Op F) Ans (Result F) where
  Start s sent p s' := sent.number = s.nextFlow ∧ p = handler h s.nextFlow sent.message ∧
    s' = { s with nextFlow := s.nextFlow + 1 }
  Answers s op a s' := Vouched op a ∧
    ∃ done, Answers s.store op done a ∧ s' = { s with store := storeAfter s.store op done }
  -- The state expires.
  Env s s' := s' = { s with store := none }

/-! ## What was typed -/

/-- The text is that of a message whose handler has found the conversation. -/
def TypedIn (log : Record F) (flow : Nat) (text : String) : Prop :=
  ∃ number isReply cs, (⟨number, .text isReply text⟩, ⟨.stateGet, .ok (some cs)⟩) ∈ log ∧ cs.flow = flow

def CurrencyTyped (h : HandlerSet F) (log : Record F) (flow : Nat) (code : String) : Prop :=
  ∃ text, TypedIn log flow text ∧ code = h.toUpper (trimSpace text) ∧ code.utf8ByteSize = 3

def UserTyped (log : Record F) (flow : Nat) (userID : String) : Prop :=
  ∃ text, TypedIn log flow text ∧ userID = trimSpace text

/-- The amount as it is stored, and its currency, come from one text. -/
def AmountTyped (h : HandlerSet F) (log : Record F) (flow : Nat) (amount currency : String) : Prop :=
  ∃ text first second value, TypedIn log flow text ∧ fields (trimSpace text) = [first, second] ∧
    h.parseFloat first = (value, true) ∧ h.leZero value = false ∧ amount = h.formatFixed2 value ∧
      currency = h.toUpper second

/-- The data that a state has at its step. -/
structure Filled (h : HandlerSet F) (log : Record F) (cs : ConversationState) : Prop where
  currency : cs.command = .setrate → cs.step = 2 → CurrencyTyped h log cs.flow (cs.data.get "currency")
  user : cs.command = .addcredit → cs.step = 2 ∨ cs.step = 3 → UserTyped log cs.flow (cs.data.get "user_id")
  amount : cs.command = .addcredit → cs.step = 3 →
    AmountTyped h log cs.flow (cs.data.get "amount") (cs.data.get "currency")

/-- The handler of this message was given the token of the user's session, or an empty one if there is no session. -/
def TokenGiven (log : Record F) (sent : Sent) (token : String) (sess : Option Auth.Session) : Prop :=
  (sent, ⟨.getValidToken, .ok (token, sess.map seen)⟩) ∈ log ∧ token = (sess.map Auth.Session.token).getD ""

/-- A rate and a deposit are what was typed, in one conversation. The amount was rounded to two places when it was
stored. The handlers of both do not look at the session that comes with the token. -/
def Lawful (h : HandlerSet F) (log : Record F) (sent : Sent) : Op F → Prop
  | .stateSet cs => Filled h log cs
  | .adminUpdateCurrency token code rate => (∃ sess, TokenGiven log sent token sess) ∧ ∃ isReply text flow,
      sent.message = .text isReply text ∧ TypedIn log flow text ∧ h.parseFloat (trimSpace text) = (rate, true) ∧
        h.leZero rate = false ∧ CurrencyTyped h log flow code
  | .adminDeposit flow token req => (∃ sess, TokenGiven log sent token sess) ∧ ∃ isReply text amount,
      sent.message = .text isReply text ∧ TypedIn log flow text ∧
        req.note = (if trimSpace text = "-" then "" else trimSpace text) ∧ UserTyped log flow req.userID ∧
        AmountTyped h log flow amount req.currency ∧ req.amount = (h.parseFloat amount).1
  | .askAI token _ => ∃ sess, TokenGiven log sent token (some sess)
  | .stateGet | .stateClear | .getSession | .getValidToken | .newUUID | .replyToTicket | .getCurrencyList _ => True

end Gopkg.Telegram.Provenance
