import Mathlib.Algebra.Ring.Int.Defs
import Gopkg.Circuitbreaker.Config

/-!
# The breaker

`circuitbreaker/circuitbreaker.go`. Each method holds `mu` for its whole body, so a method is one
function from the state under the lock, and the clock reading it takes, to the next state. The log lines
and the `onStateChange` goroutine do not touch the state and are left out.
-/

namespace Gopkg.Circuitbreaker

inductive State where
  | closed
  | opened
  | halfOpen
  deriving DecidableEq, Repr

/-- Clock readings, in nanoseconds. -/
abbrev Time := Int

structure Breaker where
  config : Config
  state : State
  failures : UInt32
  successes : UInt32
  halfOpenRequests : UInt32
  lastStateChange : Time
  lastFailure : Option Time
  consecutiveOpens : UInt32
  currentOpenTimeout : Int64

inductive BreakerError where
  | circuitOpen
  deriving DecidableEq, Repr

def Breaker.new (cfg : Config) (now : Time) : Breaker where
  config := cfg
  state := .closed
  failures := 0
  successes := 0
  halfOpenRequests := 0
  lastStateChange := now
  lastFailure := none
  consecutiveOpens := 0
  currentOpenTimeout := cfg.openTimeout

/-- `time.Since`, which saturates at the ends of `time.Duration`. -/
def timeSince (now last : Time) : Int64 :=
  Int64.ofInt (max (-2 ^ 63) (min (2 ^ 63 - 1) (now - last)))

/-- The open timeout after a failed probe. -/
def Breaker.backoff (b : Breaker) : Int64 :=
  if b.config.backoffMultiplier.positive then
    let d := b.config.backoffMultiplier.scale b.currentOpenTimeout
    if 0 < b.config.maxOpenTimeout ∧ b.config.maxOpenTimeout < d then b.config.maxOpenTimeout else d
  else b.currentOpenTimeout

def Breaker.transitionTo (b : Breaker) (now : Time) (next : State) : Breaker :=
  if b.state = next then b
  else
    match next with
    | .closed =>
        { b with
          state := .closed
          lastStateChange := now
          failures := 0
          successes := 0
          halfOpenRequests := 0
          consecutiveOpens := 0
          currentOpenTimeout := b.config.openTimeout }
    | .opened =>
        { b with
          state := .opened
          lastStateChange := now
          successes := 0
          halfOpenRequests := 0
          consecutiveOpens := if b.state = .halfOpen then b.consecutiveOpens + 1 else b.consecutiveOpens
          currentOpenTimeout := if b.state = .halfOpen then b.backoff else b.currentOpenTimeout }
    | .halfOpen =>
        { b with
          state := .halfOpen
          lastStateChange := now
          successes := 0
          halfOpenRequests := 0 }

/-- `Allow`: the error is `nil` (`none`) when the call may proceed. -/
def Breaker.allow (b : Breaker) (now : Time) : Breaker × Option BreakerError :=
  match b.state with
  | .closed => (b, none)
  | .opened =>
      if b.currentOpenTimeout ≤ timeSince now b.lastStateChange then
        ({ b.transitionTo now .halfOpen with halfOpenRequests := 1 }, none)
      else (b, some .circuitOpen)
  | .halfOpen =>
      if b.halfOpenRequests < b.config.halfOpenMaxRequests then
        ({ b with halfOpenRequests := b.halfOpenRequests + 1 }, none)
      else (b, some .circuitOpen)

def Breaker.recordSuccess (b : Breaker) (now : Time) : Breaker :=
  match b.state with
  | .closed => { b with failures := 0 }
  | .halfOpen =>
      let b' := { b with successes := b.successes + 1 }
      if b'.config.successThreshold ≤ b'.successes then b'.transitionTo now .closed else b'
  | .opened => { b with successes := b.successes + 1 }

def Breaker.recordFailure (b : Breaker) (now : Time) (bucket : String) : Breaker :=
  if b.config.counting bucket then
    let b := { b with lastFailure := some now }
    match b.state with
    | .closed =>
        let b' := { b with failures := b.failures + 1 }
        if b'.config.failureThreshold ≤ b'.failures then b'.transitionTo now .opened else b'
    | .halfOpen => b.transitionTo now .opened
    | .opened => { b with failures := b.failures + 1 }
  else b

def Breaker.reset (b : Breaker) (now : Time) : Breaker := b.transitionTo now .closed

/-- What the protected function of an `Execute` call did; a failure comes with its classified bucket. -/
inductive Outcome where
  | success
  | failure (bucket : String)
  deriving DecidableEq, Repr

def Breaker.record (b : Breaker) (now : Time) : Outcome → Breaker
  | .success => b.recordSuccess now
  | .failure bucket => b.recordFailure now bucket

end Gopkg.Circuitbreaker
