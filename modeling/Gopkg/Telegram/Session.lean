import Mathlib.Algebra.Ring.Int.Defs
import Mathlib.Logic.Function.Basic
import Gopkg.Telegram.Identity

/-!
# Sessions

`communication/telegram/bot/auth/session.go`. A session is kept in Redis under one key, with a time to live.
Times are in nanoseconds since the Unix epoch.
-/

namespace Gopkg.Telegram.Auth

open Client

structure Session where
  token : String
  refreshToken : String
  expiresAt : Int
  roles : List String
  userID : String
  userType : String
  lang : String
  deriving DecidableEq, Repr

def sessionKey (partnerID : String) (telegramID : Int) : String := s!"tgbot:session:{partnerID}:{telegramID}"

/-- What Redis holds: under each key a session and its time to live. -/
abbrev Redis := String → Option (Session × Int)

/-- How Redis answers a `Set`. One that is answered with an error may have taken effect all the same. -/
inductive SetReply where
  | ok
  | error (err : String) (done : Bool)
  deriving DecidableEq, Repr

def Redis.set (rdb : Redis) (key : String) (sess : Session) (ttl : Int) : SetReply → Except String Unit × Redis
  | .ok => (.ok (), Function.update rdb key (some (sess, ttl)))
  | .error err done => (.error err, if done then Function.update rdb key (some (sess, ttl)) else rdb)

def second : Int := 10 ^ 9

def minute : Int := 60 * second

/-- `now` is the reading of the clock in `time.Until`. -/
def saveSession (rdb : Redis) (partnerID : String) (telegramID : Int) (sess : Session) (now : Int)
    (reply : SetReply) : Except String Unit × Redis :=
  let ttl := sess.expiresAt * second - now
  let ttl := if ttl < minute then minute else ttl
  rdb.set (sessionKey partnerID telegramID) sess ttl reply

/-- The session that `Authenticate` makes of an answer that comes at the time `now`. -/
def newSession (resp : AuthResponse) (now : Int) : Session where
  token := resp.accessToken
  refreshToken := resp.refreshToken
  expiresAt := (now + resp.expiresIn * second) / second
  roles := resp.roles
  userID := resp.user.id
  userType := resp.user.userType
  lang := "ar"

/-- `now` and `now'` are the readings of the clock in `Authenticate` and in `saveSession`. -/
def authenticate (rdb : Redis) (partnerID : String) (telegramID : Int) (resp : Http AuthResponse) (now now' : Int)
    (reply : SetReply) : Except String Session × Redis :=
  match exchangeTelegramToken resp with
  | .error err => (.error s!"exchange token: {err}", rdb)
  | .ok resp =>
      let sess := newSession resp now
      match saveSession rdb partnerID telegramID sess now' reply with
      | (.error err, rdb) => (.error err, rdb)
      | (.ok (), rdb) => (.ok sess, rdb)

/-! ## Answers that are no success -/

variable (rdb : Redis) {partnerID : String} {telegramID now now' : Int} {r : AuthResponse}

theorem authenticate_refused {e : APIError} {reply : SetReply} (hs : r.success = false) (he : r.error = some e) :
    authenticate rdb partnerID telegramID (.body (.ok r)) now now' reply =
      (.error s!"exchange token: {e.text}", rdb) := by
  simp only [authenticate, exchangeTelegramToken_decoded, hs, he, accept_refused]

theorem authenticate_no_error (he : r.error = none) :
    (authenticate rdb partnerID telegramID (.body (.ok r)) now now' .ok).1 = .ok (newSession r now) := by
  simp only [authenticate, exchangeTelegramToken_decoded, he, accept_no_error, saveSession, Redis.set]

end Gopkg.Telegram.Auth
