import Mathlib.Logic.Function.Basic
import Gopkg.Lts.Run

/-!
# LRU cache

`cache/lru/lru.go`. The list of `container/list` is the list of its elements, front first, and an element is
known by its address; the map holds addresses too. A time is the number of nanoseconds since the zero
`time.Time`. Every method holds the mutex to its end and reads the clock inside, so that the calls of several
goroutines come one after the other. Keys have a lawful equality: those that are not equal to themselves, such as a
NaN, are left out.
-/

namespace Gopkg.Lru

variable {K V : Type}

structure Entry (K V : Type) where
  key : K
  value : V
  -- The zero time for no expiry.
  expireAt : Nat
  deriving DecidableEq, Repr

structure Cache (K V : Type) where
  capacity : Int
  ttl : Int
  ll : List Nat
  items : K → Option Nat
  -- What the elements point to, those that have left the list as well.
  heap : Nat → Option (Entry K V)
  fresh : Nat

def Cache.new (capacity ttl : Int) : Cache K V where
  capacity := if capacity < 1 then 1 else capacity
  ttl := ttl
  ll := []
  items _ := none
  heap _ := none
  fresh := 0

namespace Cache

/-! ## Operations of `container/list` -/

def pushFront (c : Cache K V) (en : Entry K V) : Cache K V :=
  { c with ll := c.fresh :: c.ll, heap := Function.update c.heap c.fresh (some en), fresh := c.fresh + 1 }

def moveToFront (c : Cache K V) (el : Nat) : Cache K V :=
  if el ∈ c.ll then { c with ll := el :: c.ll.erase el } else c

def len (c : Cache K V) : Nat := c.ll.length

/-! ## Operations of the cache -/

variable [DecidableEq K]

/-- The time at which a value that is set now expires, if it has one. -/
def expiry (c : Cache K V) (now : Nat) : Option Nat := if 0 < c.ttl then some (now + c.ttl.toNat) else none

def remove (c : Cache K V) (el : Nat) : Cache K V :=
  match c.heap el with
  | some en => { c with items := Function.update c.items en.key none, ll := c.ll.erase el }
  | none => c

def removeOldest (c : Cache K V) : Cache K V :=
  match c.ll.getLast? with
  | some el => c.remove el
  | none => c

def set (c : Cache K V) (now : Nat) (key : K) (value : V) : Cache K V :=
  match c.items key with
  | some el =>
      match c.heap el with
      | some en =>
          let en := { en with value := value, expireAt := (c.expiry now).getD en.expireAt }
          { c with heap := Function.update c.heap el (some en) }.moveToFront el
      | none => c
  | none =>
      let en : Entry K V := { key := key, value := value, expireAt := (c.expiry now).getD 0 }
      let c' := c.pushFront en
      let c' := { c' with items := Function.update c'.items key (some c.fresh) }
      if c'.capacity < c'.len then c'.removeOldest else c'

/-- The guard of `Get`: the entry has an expiry, and it is past. -/
def expired (c : Cache K V) (now : Nat) (en : Entry K V) : Bool :=
  decide (0 < c.ttl) && decide (en.expireAt ≠ 0) && decide (en.expireAt < now)

/-- The value is `none` for the answer `false`. -/
def get (c : Cache K V) (now : Nat) (key : K) : Cache K V × Option V :=
  match c.items key with
  | none => (c, none)
  | some el =>
      match c.heap el with
      | some en => if c.expired now en then (c.remove el, none) else (c.moveToFront el, some en.value)
      | none => (c, none)

def delete (c : Cache K V) (key : K) : Cache K V :=
  match c.items key with
  | some el => c.remove el
  | none => c

def clear (c : Cache K V) : Cache K V := { c with ll := [], items := fun _ => none }

end Cache

/-! ## Histories -/

inductive Op (K V : Type) where
  | set (key : K) (value : V)
  | get (key : K)
  | delete (key : K)
  | clear
  deriving DecidableEq, Repr

/-- A call that was made, with the clock reading and with what `Get` answered. -/
structure Call (K V : Type) where
  now : Nat
  op : Op K V
  answer : Option V
  deriving DecidableEq, Repr

def Cache.call [DecidableEq K] (c : Cache K V) (now : Nat) : Op K V → Cache K V × Option V
  | .set key value => (c.set now key value, none)
  | .get key => c.get now key
  | .delete key => (c.delete key, none)
  | .clear => (c.clear, none)

inductive Step [DecidableEq K] : Cache K V → List (Call K V) → Cache K V → Prop
  | L_Call {c : Cache K V} (now : Nat) (op : Op K V) :
      Step c [⟨now, op, (c.call now op).2⟩] (c.call now op).1

end Gopkg.Lru
