import Gopkg.Lru.Cache

/-!
# Recency lists

What the cache is for: entries with distinct keys, the most recent first. There is no map and there are no
elements here; and what a history of calls says about a key is said without a cache.
-/

namespace Gopkg.Lru

variable {K V : Type} [DecidableEq K]

/-! ## The list of entries -/

def dropKey (key : K) (l : List (Entry K V)) : List (Entry K V) := l.filter (·.key ≠ key)

def promote (en : Entry K V) (l : List (Entry K V)) : List (Entry K V) := en :: dropKey en.key l

def lookup (l : List (Entry K V)) (key : K) : Option (Entry K V) := l.find? (·.key = key)

/-- A cache of entries: its size, and for how long an entry is served. -/
structure Policy where
  size : Nat
  ttl : Option Nat

def Policy.stale (p : Policy) (now : Nat) (en : Entry K V) : Bool := p.ttl.isSome && decide (en.expireAt < now)

def Policy.call (p : Policy) (l : List (Entry K V)) (now : Nat) : Op K V → List (Entry K V) × Option V
  | .set key value => ((promote ⟨key, value, (p.ttl.map (now + ·)).getD 0⟩ l).take p.size, none)
  | .get key =>
      match lookup l key with
      | none => (l, none)
      | some en => if p.stale now en then (dropKey key l, none) else (promote en l, some en.value)
  | .delete key => (dropKey key l, none)
  | .clear => ([], none)

/-! ## What a history says about a key -/

/-- The value and the time of the last `Set`, unless a `Delete` or a `Clear` came after it. -/
def written (h : List (Call K V)) (key : K) : Option (V × Nat) :=
  h.foldl (fun w x => match x.op with
    | .set k v => if k = key then some (v, x.now) else w
    | .get _ => w
    | .delete k => if k = key then none else w
    | .clear => none) none

/-- A `Set` touches its key, and so does a `Get` that hits. -/
def Call.touched (x : Call K V) : Option K :=
  match x.op, x.answer with
  | .set k _, _ => some k
  | .get k, some _ => some k
  | _, _ => none

/-- The other keys that have been touched since the last touch of the key. -/
def others (h : List (Call K V)) (key : K) : List K :=
  h.foldl (fun ks x => match x.touched with
    | some k => if k = key then [] else ks.insert k
    | none => ks) []

/-- The history has a value for the key, and its time to live is not over. -/
def Live (ttl : Int) (h : List (Call K V)) (now : Nat) (key : K) (v : V) : Prop :=
  ∃ t, written h key = some (v, t) ∧ (ttl ≤ 0 ∨ (now : Int) ≤ t + ttl)

end Gopkg.Lru
