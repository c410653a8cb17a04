/-!
# Identity client

`communication/telegram/bot/client/identity.go`. A request is known by what comes back for it.
-/

namespace Gopkg.Telegram.Client

structure APIError where
  code : String
  message : String
  deriving DecidableEq, Repr

def APIError.text (e : APIError) : String := s!"{e.code}: {e.message}"

structure UserInfo where
  id : String
  name : String
  userType : String
  deriving DecidableEq, Repr

structure AuthResponse where
  success : Bool
  accessToken : String
  refreshToken : String
  expiresIn : Int
  roles : List String
  user : UserInfo
  error : Option APIError
  deriving DecidableEq, Repr

structure PartnerBotConfig where
  partnerID : String
  partnerCode : String
  botToken : String
  deriving DecidableEq, Repr

structure GetBotsResponse where
  success : Bool
  bots : List PartnerBotConfig
  error : Option APIError
  deriving DecidableEq, Repr

/-- What comes back for a request to the identity service. -/
inductive Http (α : Type) where
  -- `http.NewRequest` fails.
  | invalid (err : String)
  -- `httpClient.Do` fails.
  | failed (err : String)
  -- A status other than 200.
  | status (code : Nat) (body : String)
  -- A body that is the JSON of a response, or is not.
  | body (r : Except String α)

variable {α : Type}

def doInternal (path : String) : Http α → Except String (Except String α)
  | .invalid err => .error s!"create request: {err}"
  | .failed err => .error s!"request {path}: {err}"
  | .status code body => .error s!"request {path} returned {code}: {body}"
  | .body r => .ok r

/-- The test that the requests share: an answer is refused when it is no success and carries an error. -/
def accept (success : Bool) (error : Option APIError) (result : α) : Except String α :=
  match success, error with
  | false, some e => .error e.text
  | _, _ => .ok result

def request (name : String) (success : α → Bool) (error : α → Option APIError) (resp : Http α) : Except String α := do
  let path := s!"/eticket.identity.v1.IdentityService/{name}"
  match ← doInternal path resp with
  | .error err => throw s!"decode {name} response: {err}"
  | .ok result => accept (success result) (error result) result

def exchangeTelegramToken (resp : Http AuthResponse) : Except String AuthResponse :=
  request "ExchangeTelegramToken" AuthResponse.success AuthResponse.error resp

def getTelegramBots (resp : Http GetBotsResponse) : Except String (List PartnerBotConfig) := do
  let result ← request "GetTelegramBots" GetBotsResponse.success GetBotsResponse.error resp
  return result.bots

/-! ## Answers that are no success -/

theorem accept_refused (e : APIError) (result : α) : accept false (some e) result = .error e.text := rfl

theorem accept_no_error (success : Bool) (result : α) : accept success none result = .ok result := by
  cases success <;> rfl

theorem exchangeTelegramToken_decoded (r : AuthResponse) :
    exchangeTelegramToken (.body (.ok r)) = accept r.success r.error r := rfl

theorem getTelegramBots_decoded (r : GetBotsResponse) :
    getTelegramBots (.body (.ok r)) = (accept r.success r.error r).map GetBotsResponse.bots := rfl

end Gopkg.Telegram.Client
