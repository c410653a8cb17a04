import Gopkg.Telegram.Handlers

/-!
# Gateway client

`communication/telegram/bot/client/gateway.go`: what `AdminDeposit` makes of what happens to its request.
-/

namespace Gopkg.Telegram.Client

inductive ClientError where
  | marshalBody (err : String)
  | createRequest (err : String)
  | request (method path err : String)
  -- `*GatewayError`
  | gateway (statusCode : Int) (body : String)
  | decode (what err : String)
  deriving DecidableEq, Repr

def ClientError.error : ClientError → String
  | .marshalBody err => s!"marshal body: {err}"
  | .createRequest err => s!"create request: {err}"
  | .request method path err => s!"request {method} {path}: {err}"
  | .gateway statusCode body => s!"gateway returned {statusCode}: {body}"
  | .decode what err => s!"decode {what}: {err}"

/-- What `errors.As(err, &gwErr)` finds. -/
def ClientError.gatewayErr : ClientError → GatewayErr
  | .gateway statusCode _ => .status statusCode
  | _ => .other

/-- What happens to a request. -/
inductive Exchange where
  -- `json.Marshal` fails.
  | notMarshalled (err : String)
  -- `http.NewRequest` fails.
  | notCreated (err : String)
  -- `httpClient.Do` fails.
  | failed (err : String)
  -- The status, and what `io.ReadAll` reads of the body.
  | answered (statusCode : Int) (body : String)
  deriving DecidableEq, Repr

def doRequest (method path : String) : Exchange → Except ClientError (Int × String)
  | .notMarshalled err => .error (.marshalBody err)
  | .notCreated err => .error (.createRequest err)
  | .failed err => .error (.request method path err)
  | .answered statusCode body => .ok (statusCode, body)

def doPost (path : String) (x : Exchange) : Except ClientError String := do
  let (status, body) ← doRequest "POST" path x
  if status ≠ 200 then throw (.gateway status body) else return body

/-- `unmarshal` is `json.Unmarshal` into a `TransactionResponse`. -/
def adminDeposit (unmarshal : String → Except String TransactionResponse) (x : Exchange) :
    Except ClientError TransactionResponse := do
  let data ← doPost "/api/v1/admin/wallets/deposit" x
  match unmarshal data with
  | .error err => throw (.decode "deposit" err)
  | .ok resp => return resp

/-- The answer, as the handlers tell answers apart. -/
def adminDepositAnswer (unmarshal : String → Except String TransactionResponse) (x : Exchange) :
    Except GatewayErr TransactionResponse :=
  (adminDeposit unmarshal x).mapError ClientError.gatewayErr

/-- The response that a reply is decoded to: the status is 200, and the body is the JSON of one. -/
def Exchange.decoded (unmarshal : String → Except String TransactionResponse) : Exchange → Option TransactionResponse
  | .answered statusCode body => if statusCode = 200 then (unmarshal body).toOption else none
  | _ => none

theorem doPost_answered (path : String) (statusCode : Int) (body : String) :
    doPost path (.answered statusCode body) =
      if statusCode ≠ 200 then .error (.gateway statusCode body) else .ok body :=
  rfl

/-- `AdminDeposit` returns a response when there is one, whatever it says. -/
theorem adminDepositAnswer_toOption (unmarshal : String → Except String TransactionResponse) (x : Exchange) :
    (adminDepositAnswer unmarshal x).toOption = x.decoded unmarshal := by
  cases x with
  | notMarshalled err | notCreated err | failed err => rfl
  | answered statusCode body =>
      rw [adminDepositAnswer, adminDeposit, doPost_answered, Exchange.decoded]
      by_cases hstatus : statusCode = 200
      · rw [if_neg fun h => h hstatus, if_pos hstatus]
        change (Except.mapError _ (Except.bind (.ok body) _)).toOption = _
        cases h : unmarshal body with
        | error err =>
            simp only [Except.bind, h]
            rfl
        | ok resp =>
            simp only [Except.bind, h]
            rfl
      · rw [if_pos hstatus, if_neg hstatus]
        rfl

end Gopkg.Telegram.Client
