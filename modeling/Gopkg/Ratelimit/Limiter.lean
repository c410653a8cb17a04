import Mathlib.Data.Rat.Defs
import Mathlib.Algebra.Order.Ring.Unbundled.Rat
import Gopkg.Lts.Run

/-!
# Token bucket

`ratelimit/ratelimit.go`, with rational numbers for the `float64` ones. A time is a number of nanoseconds.
Every call reads the clock once, under the lock, and the clock may read anything.
-/

namespace Gopkg.Ratelimit

structure Limiter where
  capacity : ℚ
  refillRate : ℚ
  tokens : ℚ
  lastRefill : Int
  closed : Bool
  deriving DecidableEq, Repr

/-- `New` panics unless both numbers are positive. -/
def new (capacity ratePerSecond : ℚ) (now : Int) : Option Limiter :=
  if capacity ≤ 0 ∨ ratePerSecond ≤ 0 then none
  else some {
    capacity := capacity
    refillRate := ratePerSecond
    tokens := capacity
    lastRefill := now
    closed := false }

/-- `t.Sub(u)`, which saturates at the ends of `time.Duration`. -/
def sub (t u : Int) : Int := max (-2 ^ 63) (min (2 ^ 63 - 1) (t - u))

def seconds (d : Int) : ℚ := d / 10 ^ 9

namespace Limiter

def refill (l : Limiter) (now : Int) : Limiter :=
  let elapsed := seconds (sub now l.lastRefill)
  if elapsed ≤ 0 then l
  else
    let tokens := l.tokens + elapsed * l.refillRate
    { l with tokens := if l.capacity < tokens then l.capacity else tokens, lastRefill := now }

def allow (l : Limiter) (now : Int) : Limiter × Bool :=
  let l := l.refill now
  if 1 ≤ l.tokens then ({ l with tokens := l.tokens - 1 }, true) else (l, false)

end Limiter

/-- How one pass of the loop of `Wait` ends: the pass that gets no token sleeps for `waitDur` nanoseconds, or until
the context is done. -/
inductive Attempt where
  | closed
  | granted
  | retry (waitDur : Int)
  deriving DecidableEq, Repr

namespace Limiter

def attempt (l : Limiter) (now : Int) : Limiter × Attempt :=
  if l.closed then (l, .closed)
  else
    let l := l.refill now
    if 1 ≤ l.tokens then ({ l with tokens := l.tokens - 1 }, .granted)
    else (l, .retry ((1 - l.tokens) / l.refillRate * 10 ^ 9).floor)

def close (l : Limiter) : Limiter := { l with closed := true }

end Limiter

/-! ## Calls -/

inductive Event where
  | allowed (ok : Bool)
  | attempted (a : Attempt)
  | tokens (n : ℚ)
  | closed
  deriving DecidableEq, Repr

inductive Step : Limiter → List Event → Limiter → Prop
  | L_Allow {l : Limiter} (now : Int) : Step l [.allowed (l.allow now).2] (l.allow now).1
  | L_Wait {l : Limiter} (now : Int) : Step l [.attempted (l.attempt now).2] (l.attempt now).1
  | L_Tokens {l : Limiter} (now : Int) : Step l [.tokens (l.refill now).tokens] (l.refill now)
  | L_Close {l : Limiter} : Step l [.closed] l.close

def Event.isGrant : Event → Bool
  | .allowed ok => ok
  | .attempted a => a == .granted
  | _ => false

/-- The tokens that were handed out. -/
def granted (t : List Event) : Nat := t.countP Event.isGrant

end Gopkg.Ratelimit
