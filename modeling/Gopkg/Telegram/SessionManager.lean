import Gopkg.Lts.Pool
import Gopkg.Telegram.Session

/-!
# The session manager

`communication/telegram/bot/auth/session.go`, for one user: the methods of `SessionManager` as programs, each call of
Redis, of the identity service and of the clock being one operation. A stored session is what `saveSession` wrote, so
that it can be decoded.
-/

namespace Gopkg.Telegram.Auth.SessionManager

open Lts Client

inductive Op where
  | get
  | set (sess : Session) (ttl : Int)
  | exchange
  | clock
  -- The function that `HandleUnauthorized` retries.
  | callback (token : String)

@[reducible] def Ans : Op → Type
  | .get => Except String (Option Session)
  | .set _ _ => SetReply
  | .exchange => Http AuthResponse
  | .clock => Int
  | .callback _ => Option String

abbrev Call := Program Op Ans

def get : Call (Except String (Option Session)) := .perform Op.get
def set (sess : Session) (ttl : Int) : Call SetReply := .perform (Op.set sess ttl)
def exchange : Call (Http AuthResponse) := .perform Op.exchange
def clock : Call Int := .perform Op.clock
def callback (token : String) : Call (Option String) := .perform (Op.callback token)

/-- The buffer is five minutes. -/
def isExpired (sess : Session) (now : Int) : Bool := decide (sess.expiresAt - 300 ≤ now / second)

def getSession : Call (Except String (Option Session)) := do
  match ← get with
  | .error err => return .error s!"get session: {err}"
  | .ok sess => return .ok sess

def saveSession (sess : Session) : Call (Option String) := do
  let now ← clock
  let ttl := sess.expiresAt * second - now
  match ← set sess (if ttl < minute then minute else ttl) with
  | .ok => return none
  | .error err _ => return some err

def authenticate : Call (Except String Session) := do
  match exchangeTelegramToken (← exchange) with
  | .error err => return .error s!"exchange token: {err}"
  | .ok resp =>
      let now ← clock
      match ← saveSession (newSession resp now) with
      | some err => return .error err
      | none => return .ok (newSession resp now)

def getValidToken : Call (Except String (String × Option Session)) := do
  match ← getSession with
  | .error err => return .error err
  | .ok none => return .ok ("", none)
  | .ok (some sess) =>
      if isExpired sess (← clock) then
        match ← authenticate with
        | .error err => return .error s!"re-authenticate: {err}"
        | .ok newSess => return .ok (newSess.token, some newSess)
      else return .ok (sess.token, some sess)

def handleUnauthorized : Call (Option String) := do
  match ← authenticate with
  | .error err => return some err
  | .ok sess => callback sess.token

def setLang (lang : String) : Call (Option String) := do
  match ← getSession with
  | .ok (some sess) => saveSession { sess with lang := lang }
  | _ => return some "session not found"

/-- On its own the program is the function `Auth.authenticate` of the answers that it gets. -/
theorem authenticate_run (rdb : Redis) (partnerID : String) (telegramID : Int) {resp : Http AuthResponse}
    {r : AuthResponse} (h : exchangeTelegramToken resp = .ok r) (now now' : Int) (reply : SetReply) :
    ∃ ttl, Run Program.Step authenticate
      [⟨.exchange, resp⟩, ⟨.clock, now⟩, ⟨.clock, now'⟩, ⟨.set (newSession r now) ttl, reply⟩]
      (.ret (Auth.authenticate rdb partnerID telegramID resp now now' reply).1) := by
  have h₁ : Run Program.Step authenticate _ _ := .single (.of_call rfl resp)
  simp only [Program.ret_bind, h] at h₁
  have h₂ := h₁.snoc (.of_call rfl now)
  have h₃ := h₂.snoc (.of_call rfl now')
  have h₄ := h₃.snoc (.of_call rfl reply)
  rw [Auth.authenticate, h]
  cases reply with
  | ok => exact ⟨_, h₄⟩
  | error err done => exact ⟨_, h₄⟩

/-- The token that is returned is that of the session beside it. -/
theorem getValidToken_returns {t : List ((op : Op) × Ans op)} {token : String} {sess : Option Session}
    (hr : Run Program.Step getValidToken t (.ret (.ok (token, sess)))) : token = (sess.map Session.token).getD "" := by
  obtain ⟨found, t₁, rfl, hr₁⟩ := Program.run_call Op.get rfl hr
  rcases found with err | _ | stored
  · cases (Program.run_ret rfl hr₁).2
  · cases (Program.run_ret rfl hr₁).2
    rfl
  · obtain ⟨now, t₂, rfl, hr₂⟩ := Program.run_call Op.clock rfl hr₁
    dsimp only [Program.ret_bind] at hr₂
    split at hr₂
    next =>
      obtain ⟨resp, t₃, rfl, hr₃⟩ := Program.run_call Op.exchange rfl hr₂
      dsimp only [Program.ret_bind] at hr₃
      split at hr₃
      next => cases (Program.run_ret rfl hr₃).2
      next =>
        obtain ⟨_, t₄, rfl, hr₄⟩ := Program.run_call Op.clock rfl hr₃
        obtain ⟨_, t₅, rfl, hr₅⟩ := Program.run_call Op.clock rfl hr₄
        obtain ⟨reply, t₆, rfl, hr₆⟩ := Program.run_call (Op.set _ _) rfl hr₅
        cases reply with
        | ok =>
            cases (Program.run_ret rfl hr₆).2
            rfl
        | error err done => cases (Program.run_ret rfl hr₆).2
    next =>
      cases (Program.run_ret rfl hr₂).2
      rfl

/-! ## Calls for one user -/

inductive Request where
  | authenticate
  | getValidToken
  | handleUnauthorized
  | setLang (lang : String)
  deriving DecidableEq, Repr

inductive Result where
  | session (r : Except String Session)
  | token (r : Except String (String × Option Session))
  | done (err : Option String)

def Request.program : Request → Call Result
  | .authenticate => do return .session (← SessionManager.authenticate)
  | .getValidToken => do return .token (← SessionManager.getValidToken)
  | .handleUnauthorized => do return .done (← SessionManager.handleUnauthorized)
  | .setLang lang => do return .done (← SessionManager.setLang lang)

structure Shared where
  -- The session, and when its key expires.
  store : Option (Session × Int)
  now : Int
  -- The language of the last `SetLang`, when that was successful.
  chosen : Option String
  -- The number of times that a `SetLang` has written.
  choices : Nat

/-- A call, with the number of choices that were made before it. -/
structure Task where
  request : Request
  startedAt : Nat

def Shared.write (s : Shared) (sess : Session) (ttl : Int) : SetReply → Shared
  | .ok => { s with store := some (sess, s.now + ttl) }
  | .error _ done => if done then { s with store := some (sess, s.now + ttl) } else s

def Shared.choose (s : Shared) : Request → SetReply → Shared
  | .setLang lang, .ok => { s with chosen := some lang, choices := s.choices + 1 }
  | .setLang _, .error _ _ => { s with chosen := none, choices := s.choices + 1 }
  | _, _ => s

/-- What an operation does. Redis may fail, and so may the others. -/
def Act (s : Shared) (task : Task) : (op : Op) → Ans op → Shared → Prop
  | .get, a, s' => s' = s ∧ ∀ found, a = .ok found → found = s.store.map Prod.fst
  | .set sess ttl, a, s' => s' = (s.write sess ttl a).choose task.request a
  | .clock, a, s' => s' = s ∧ a = s.now
  | .exchange, _, s' | .callback _, _, s' => s' = s

/-- The clock goes on, and a key expires. -/
inductive Env : Shared → Shared → Prop
  | advance {s : Shared} (d : Nat) : Env s { s with now := s.now + d }
  | expire {s : Shared} {sess : Session} {expiry : Int} : s.store = some (sess, expiry) → expiry ≤ s.now →
      Env s { s with store := none }

def system : System Shared Task Op Ans Result where
  Start s task p s' := s' = s ∧ task.startedAt = s.choices ∧ p = task.request.program
  Act s task op a s' task' := Act s task op a s' ∧ task' = task
  Enter _ _ _ := False
  Env := Env

def Shared.init (store : Option (Session × Int)) (now : Int) : Shared :=
  { store := store, now := now, chosen := none, choices := 0 }

/-- An `Authenticate` writes only while no other language than its own is chosen. -/
def Unchosen (s : Shared) (task : Task) : (op : Op) → Ans op → Shared → Prop
  | .set _ _, _, _ => (∃ lang, task.request = .setLang lang) ∨ s.chosen = none ∨ s.chosen = some "ar"
  | _, _, _ => True

end Gopkg.Telegram.Auth.SessionManager
