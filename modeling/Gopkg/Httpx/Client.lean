import Gopkg.Go.Backoff
import Gopkg.Lts.Alone

/-!
# HTTP client with retries

`httpx/client`: a transport that sends a request again when it fails. The request is buffered, so that each attempt can
send its body from the start. Durations are in nanoseconds; their products are exact and do not overflow. The timeouts
and the connection pool of the client are left out.
-/

namespace Gopkg.Httpx

open Go Lts

inductive Err where
  | ctx (err : CtxErr)
  | new (text : String)
  /-- `fmt.Errorf` with a `%w` at the end. -/
  | wrapped (text : String) (err : Err)
  deriving DecidableEq, Repr

/-- `errors.Is(err, context.Canceled) || errors.Is(err, context.DeadlineExceeded)`. -/
def Err.isCtx : Err → Bool
  | .ctx _ => true
  | .new _ => false
  | .wrapped _ err => err.isCtx

/-- The statuses may be nil, which is not the same as none. -/
structure RetryConfig where
  maxAttempts : Int
  backoffInitial : Int
  backoffMax : Int
  backoffMultiplier : ℚ
  retryOnStatuses : Option (List Int)
  retryOnNetErr : Bool
  deriving DecidableEq, Repr

/-- `req.Body`: nil, `http.NoBody`, the reader of the caller, or a reader over a buffer. -/
inductive Body where
  | nil
  | noBody
  | stream
  | buffered (bytes : List UInt8)
  deriving DecidableEq, Repr

/-- A response, with a number for its body. -/
structure Response where
  statusCode : Int
  body : Nat
  deriving DecidableEq, Repr

/-- The calls to the body of the request, to the transport behind, to the body of a response, and the timer in a
`select` with `ctx.Done`. -/
inductive Op where
  | readAll
  | closeRequestBody
  | next (body : Body)
  | discard (resp : Response)
  | close (resp : Response)
  | sleep (d : Int)
  deriving DecidableEq

/-- A `Bool` says whether the error is nil. A pause is over, or it is cut short by the end of the context. -/
abbrev Ans : Op → Type
  | .readAll => Except Err (List UInt8)
  | .closeRequestBody => Bool
  | .next _ => Except Err Response
  | .discard _ | .close _ => Bool
  | .sleep _ => Option CtxErr

abbrev Call := Program Op Ans

def perform (op : Op) : Call (Ans op) := .perform op

/-- What `RoundTrip` returns: a response and an error, which may be nil. -/
abbrev Result := Option Response × Option Err

def result : Except Err Response → Result
  | .ok resp => (some resp, none)
  | .error err => (none, some err)

/-- The part of `applyDefaults` on retries. -/
def applyDefaults (c : RetryConfig) : RetryConfig where
  maxAttempts := c.maxAttempts
  backoffInitial := if c.backoffInitial = 0 then 100 * 1000000 else c.backoffInitial
  backoffMax := if c.backoffMax = 0 then 5 * 1000000000 else c.backoffMax
  backoffMultiplier := if c.backoffMultiplier = 0 then 2 else c.backoffMultiplier
  retryOnStatuses :=
    match c.retryOnStatuses with
    | none => some [502, 503, 504]
    | some statuses => some statuses
  retryOnNetErr := if !c.retryOnNetErr then true else c.retryOnNetErr

def shouldRetry (cfg : RetryConfig) : Except Err Response → Bool
  | .error err =>
      if !cfg.retryOnNetErr then false
      else if err.isCtx then false
      else true
  | .ok resp => (cfg.retryOnStatuses.getD []).any fun s => resp.statusCode == s

/-- The body of a response that is not returned. -/
def discardBody : Except Err Response → Call Unit
  | .error _ => return
  | .ok resp => do
      let _ ← perform (.discard resp)
      let _ ← perform (.close resp)

def nextDelay (cfg : RetryConfig) (delay : Int) : Int :=
  let delay := toDuration (delay * cfg.backoffMultiplier)
  if delay > cfg.backoffMax then cfg.backoffMax else delay

/-- The loop of `RoundTrip`, with `left` attempts after the next one. -/
def attempts (cfg : RetryConfig) (bodyBytes : Option (List UInt8)) (body : Body) : (left : Nat) → (delay : Int) →
    Call Result
  | left, delay => do
      let body := match bodyBytes with
        | some bytes => .buffered bytes
        | none => body
      let outcome ← perform (.next body)
      if !shouldRetry cfg outcome then return result outcome
      else
        match left with
        | 0 => return result outcome
        | left + 1 =>
            discardBody outcome
            match ← perform (.sleep delay) with
            | some err => return (none, some (.ctx err))
            | none => attempts cfg bodyBytes body left (nextDelay cfg delay)

/-- The part of `RoundTrip` after the body is buffered. -/
def sendAll (cfg : RetryConfig) (bodyBytes : Option (List UInt8)) (body : Body) : Call Result :=
  if cfg.maxAttempts < 1 then return (none, none)
  else attempts cfg bodyBytes body (cfg.maxAttempts.toNat - 1) cfg.backoffInitial

def roundTrip (cfg : RetryConfig) (body : Body) : Call Result := do
  if body ≠ .nil ∧ body ≠ .noBody then
    match ← perform .readAll with
    | .error err => return (none, some (.wrapped "httpx: read body for retry: " err))
    | .ok bytes =>
        let _ ← perform .closeRequestBody
        sendAll cfg (some bytes) body
  else sendAll cfg none body

/-- The transport of the client that `New` makes. -/
def newRoundTrip (cfg : RetryConfig) (body : Body) : Call Result := do
  let cfg := applyDefaults cfg
  if cfg.maxAttempts > 1 then roundTrip cfg body
  else return result (← perform (.next body))

end Gopkg.Httpx
