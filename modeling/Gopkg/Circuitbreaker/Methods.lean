import Gopkg.Lts.Run
import Gopkg.Circuitbreaker.Breaker

/-!
# Method calls in any order

The methods of the breaker are exported, and nothing ties a report to an `Allow`: a program may call them in any
order. A run is any sequence of calls and of clock advances.
-/

namespace Gopkg.Circuitbreaker

inductive Method where
  | allow
  | recordSuccess
  | recordFailure (bucket : String)
  | reset
  deriving DecidableEq, Repr

/-- The breaker after the call, and the error that `Allow` returns. -/
def Breaker.call (b : Breaker) (now : Time) : Method → Breaker × Option BreakerError
  | .allow => b.allow now
  | .recordSuccess => (b.recordSuccess now, none)
  | .recordFailure bucket => (b.recordFailure now bucket, none)
  | .reset => (b.reset now, none)

/-- A call, the clock reading it took, the error it returned, and the state before and after it. -/
structure Called where
  method : Method
  now : Time
  err : Option BreakerError
  before : State
  after : State
  deriving DecidableEq, Repr

structure Clocked where
  breaker : Breaker
  now : Time

def Clocked.init (cfg : Config) (now : Time) : Clocked := { breaker := Breaker.new cfg now, now := now }

inductive MethodStep : Clocked → List Called → Clocked → Prop
  | B_Call {c : Clocked} {b : Breaker} {e : Option BreakerError} (m : Method) : c.breaker.call c.now m = (b, e) →
      MethodStep c [⟨m, c.now, e, c.breaker.state, b.state⟩] { c with breaker := b }
  | B_Advance {c : Clocked} (d : Nat) : MethodStep c [] { c with now := c.now + d }

/-! ## What a history says -/

/-- A closed period begins with the call. -/
def Called.closes (x : Called) : Bool := x.before != .closed && x.after == .closed

/-- A half-open period fails with the call. -/
def Called.reopens (x : Called) : Bool := x.before == .halfOpen && x.after == .opened

/-- The call reports a failure with a counting bucket. -/
def Called.counts (cfg : Config) (x : Called) : Bool :=
  match x.method with
  | .recordFailure bucket => decide (bucket ≠ "" ∧ bucket ∉ cfg.nonRetryableErrors)
  | _ => false

/-- The calls since the last one that satisfies `p`. -/
def callsSince (p : Called → Bool) (t : List Called) : List Called := t.reverse.takeWhile fun x => !p x

/-- The counting failures since the closed period began or, when that is later, since its last success. -/
def streak (cfg : Config) (t : List Called) : Nat :=
  (callsSince (fun x => x.closes || x.method == .recordSuccess) t).countP (Called.counts cfg)

/-- The half-open periods that have failed since the breaker was closed. -/
def failedPeriods (t : List Called) : Nat := (callsSince Called.closes t).countP Called.reopens

/-- When the state last changed; `start` is the time of `New`. -/
def periodStart (start : Time) (t : List Called) : Time :=
  ((t.reverse.find? fun x => x.before != x.after).map Called.now).getD start

end Gopkg.Circuitbreaker
