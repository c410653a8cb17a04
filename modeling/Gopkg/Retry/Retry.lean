import Gopkg.Go.Backoff
import Gopkg.Lts.Alone

/-!
# Retries

`retry`: a function is called until it succeeds, with pauses between the calls that grow up to a bound. Durations are in
nanoseconds. The factors of a policy are exact numbers here, and products of durations do not overflow.
-/

namespace Gopkg.Retry

open Go Lts

inductive Err where
  /-- `errors.New`. -/
  | new (text : String)
  | ctx (err : CtxErr)
  /-- `ErrPermanent`. -/
  | errPermanent
  /-- `*permanentError`. -/
  | permanentError (err : Err)
  /-- `fmt.Errorf` with a `%w` at the end. -/
  | wrapped (text : String) (err : Err)
  /-- `errors.Join`, of two. -/
  | joined (err err' : Err)
  deriving DecidableEq, Repr

/-- `errors.Is(err, ErrPermanent)`. -/
def Err.isPermanent : Err → Bool
  | .new _ | .ctx _ => false
  | .errPermanent | .permanentError _ => true
  | .wrapped _ err => err.isPermanent
  | .joined err err' => err.isPermanent || err'.isPermanent

/-- `Permanent`. -/
def permanent : Option Err → Option Err
  | none => none
  | some err => some (.permanentError err)

structure Policy where
  maxAttempts : Int
  initialDelay : Int
  maxDelay : Int
  multiplier : ℚ
  jitterFraction : ℚ
  deriving DecidableEq, Repr

def defaultPolicy : Policy where
  maxAttempts := 5
  initialDelay := 100 * 1000000
  maxDelay := 5 * 1000000000
  multiplier := 2
  jitterFraction := 1 / 4

/-- What `Do` calls: `ctx.Err`, the function, `rand.Float64`, and the timer in a `select` with `ctx.Done`. -/
inductive Op where
  | ctxErr
  | fn
  | rand
  | pause (sleep : Int)
  deriving DecidableEq

/-- A pause is over, or it is cut short by the end of the context. -/
abbrev Ans : Op → Type
  | .ctxErr => Option CtxErr
  | .fn => Option Err
  | .rand => ℚ
  | .pause _ => Option CtxErr

abbrev Call := Program Op Ans

def perform (op : Op) : Call (Ans op) := .perform op

def applyJitter (d : Int) (frac : ℚ) : Call Int := do
  if frac ≤ 0 then return d
  else
    let jitter := ((← perform .rand) * 2 - 1) * frac
    let out := toDuration (d * (1 + jitter))
    if out < 0 then return 0 else return out

/-- The values that `Do` corrects. -/
def Policy.clamped (policy : Policy) : Policy where
  maxAttempts := if policy.maxAttempts < 1 then 1 else policy.maxAttempts
  initialDelay := policy.initialDelay
  maxDelay := policy.maxDelay
  multiplier := if policy.multiplier < 1 then 1 else policy.multiplier
  jitterFraction :=
    let frac := if policy.jitterFraction < 0 then 0 else policy.jitterFraction
    if frac > 1 then 1 else frac

/-- A duration under the cap of the policy, if it has one. -/
def Policy.cap (policy : Policy) (d : Int) : Int :=
  if policy.maxDelay > 0 ∧ d > policy.maxDelay then policy.maxDelay else d

def gaveUp (attempts : Int) (lastErr : Err) : Err := .wrapped s!"retry: gave up after {attempts} attempts: " lastErr

/-- The loop of `Do`, with `left` attempts after the next one. -/
def attempts (policy : Policy) : (left : Nat) → (delay : Int) → Call (Option Err)
  | left, delay => do
      match ← perform .ctxErr with
      | some err => return some (.ctx err)
      | none =>
          match ← perform .fn with
          | none => return none
          | some lastErr =>
              if lastErr.isPermanent then return some lastErr
              else
                match left with
                | 0 => return some (gaveUp policy.maxAttempts lastErr)
                | left + 1 =>
                    let sleep ← applyJitter delay policy.jitterFraction
                    match ← perform (.pause (policy.cap sleep)) with
                    | some err => return some (.ctx err)
                    | none => attempts policy left (policy.cap (toDuration (delay * policy.multiplier)))

/-- `Do`. -/
def retryDo (policy : Policy) : Call (Option Err) :=
  let policy := policy.clamped
  attempts policy (policy.maxAttempts.toNat - 1) policy.initialDelay

end Gopkg.Retry
