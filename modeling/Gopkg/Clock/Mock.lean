import Gopkg.Slice.Heap

/-!
# Mock clock

The `Mock` of `clock/clock.go`. Each call runs to its end before the next, and nobody receives from a channel: a send on
a channel that still holds a value blocks for ever.
-/

namespace Gopkg.Clock

/-- What the clock uses of `time.Time` and `time.Duration`. -/
structure Times (T D : Type) where
  add : T → D → T
  -- `t.After(u)`
  after : T → T → Bool
  isZero : T → Bool
  -- `time.Unix(0, 0).UTC()`
  epoch : T
  zero : D
  add_zero : ∀ t, add t zero = t

structure Waiter (T : Type) where
  deadline : T
  -- The channels are numbered as they are made.
  ch : Nat
  deriving DecidableEq, Repr, Inhabited

structure Mock (T : Type) where
  now : T
  waiters : Slice
  heap : Heap (Waiter T)
  -- What was sent on each channel. Its buffer has room for one value.
  chans : List (List T)

section Methods

variable {T D : Type} [Inhabited T] (tm : Times T D) (grow : Nat → Nat → Nat)

def newMock (start : T) : Mock T where
  now := if tm.isZero start then tm.epoch else start
  waiters := .nil
  heap := []
  chans := []

/-- `ch <- t` -/
def send (chans : List (List T)) (ch : Nat) (t : T) : Option (List (List T)) :=
  match chans[ch]? with
  | some [] => some (chans.set ch [t])
  | _ => none

def Mock.after (m : Mock T) (d : D) : Option (Nat × Mock T) :=
  let ch := m.chans.length
  let chans := m.chans ++ [[]]
  let w : Waiter T := { deadline := tm.add m.now d, ch }
  let (waiters, heap) := m.waiters.append grow [w] m.heap
  if !tm.after w.deadline m.now then
    match send chans w.ch m.now with
    | some chans => some (ch, { m with waiters := waiters.upTo (waiters.len - 1), heap, chans })
    | none => none
  else some (ch, { m with waiters, heap, chans })

def Mock.advance (m : Mock T) (d : D) : Option (Mock T) :=
  let now := tm.add m.now d
  let (remaining, heap, fire) := m.waiters.sweep grow (fun w => tm.after w.deadline now) m.heap
  match fire.foldlM (fun chans w => send chans w.ch now) m.chans with
  | some chans => some { now, waiters := remaining, heap, chans }
  | none => none

def Mock.set (m : Mock T) (t : T) : Option (Mock T) := Mock.advance tm grow { m with now := t } tm.zero

inductive Op (T D : Type) where
  | after (d : D)
  | advance (d : D)
  | set (t : T)

def Mock.call (m : Mock T) : Op T D → Option (Mock T)
  | .after d => (m.after tm grow d).map (·.2)
  | .advance d => m.advance tm grow d
  | .set t => m.set tm grow t

def Mock.run (m : Mock T) (ops : List (Op T D)) : Option (Mock T) := ops.foldlM (Mock.call tm grow) m

/-- The mock time after a call. -/
def Op.time (now : T) : Op T D → T
  | .after _ => now
  | .advance d => tm.add now d
  | .set t => t

/-- The mock time now, and after each of the calls. -/
def times (now : T) : List (Op T D) → List T
  | [] => [now]
  | op :: ops => now :: times (op.time tm now) ops

end Methods

end Gopkg.Clock
