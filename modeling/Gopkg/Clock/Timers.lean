import Gopkg.Clock.Mock

/-!
# Timers

What the mock clock is for: each call of `After` sets a timer, and every timer looks at the clock after every call. It
goes off once, at the first time that is not before its deadline.
-/

namespace Gopkg.Clock

variable {T D : Type} (tm : Times T D)

structure Timer (T : Type) where
  deadline : T
  fired : Option T

def Times.Due (deadline now : T) : Prop := tm.after deadline now = false

instance (deadline now : T) : Decidable (tm.Due deadline now) := inferInstanceAs (Decidable (_ = _))

def Timer.tick (now : T) (timer : Timer T) : Timer T :=
  if timer.fired = none ∧ tm.Due timer.deadline now then { timer with fired := some now } else timer

def setTimers (now : T) : Op T D → List (Timer T)
  | .after d => [⟨tm.add now d, none⟩]
  | _ => []

structure Timers (T : Type) where
  now : T
  timers : List (Timer T)

def Timers.call (s : Timers T) (op : Op T D) : Timers T where
  now := op.time tm s.now
  timers := (s.timers ++ setTimers tm s.now op).map (Timer.tick tm (op.time tm s.now))

end Gopkg.Clock
