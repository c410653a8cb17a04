import Mathlib.Logic.Function.Basic

/-!
# Registry and pending queue

`registry/registry.go`. The methods hold their lock, so that each is one function of the state.
-/

namespace Gopkg.PendingQueue

structure Registry (K V : Type) where
  entries : K → Option V

inductive RegistryError (K : Type) where
  | alreadyRegistered (k : K)
  deriving DecidableEq, Repr

section Entries

variable {K V : Type} [DecidableEq K]

def Registry.register (r : Registry K V) (k : K) (v : V) : Registry K V × Option (RegistryError K) :=
  match r.entries k with
  | some _ => (r, some (.alreadyRegistered k))
  | none => ({ entries := Function.update r.entries k (some v) }, none)

/-- With the value that was replaced. -/
def Registry.replace (r : Registry K V) (k : K) (v : V) : Registry K V × Option V :=
  ({ entries := Function.update r.entries k (some v) }, r.entries k)

end Entries

/-- What a function does to the registry that it is given, and its error. -/
abbrev Registration (K V E : Type) := Registry K V → Registry K V × Option E

/-- A pending queue, and the registries by address. -/
structure World (K V E : Type) where
  regs : Nat → Registry K V
  target : Option Nat
  pending : List (Registration K V E)
  -- The functions that were run, each with the address of the registry.
  runs : List (Registration K V E × Nat)

variable {K V E : Type}

/-- A queue that was not used yet. -/
def World.start (regs : Nat → Registry K V) : World K V E where
  regs := regs
  target := none
  pending := []
  runs := []

/-- `fn(r)` -/
def World.apply (w : World K V E) (fn : Registration K V E) (r : Nat) : World K V E × Option E :=
  let (reg, err) := fn (w.regs r)
  ({ w with regs := Function.update w.regs r reg, runs := w.runs ++ [(fn, r)] }, err)

def World.add (w : World K V E) (fn : Registration K V E) : World K V E :=
  match w.target with
  | some r => (w.apply fn r).1
  | none => { w with pending := w.pending ++ [fn] }

/-- The loop of `Flush`, with the errors so far. -/
def World.applyAll (r : Nat) : World K V E → List (Option E) → List (Registration K V E) →
    World K V E × List (Option E)
  | w, errs, [] => (w, errs)
  | w, errs, fn :: fns =>
      let (w, err) := w.apply fn r
      applyAll r w (errs ++ [err]) fns

/-- The errors are `none` where the code returns nil. A function that is given a nil registry panics, as `Register`
does. -/
def World.flush (w : World K V E) (r : Option Nat) : Option (World K V E × Option (List (Option E))) :=
  match w.target with
  | some _ => some (w, none)
  | none =>
      match r, w.pending with
      | some r, pending =>
          let (w, errs) := World.applyAll r { w with target := some r } [] pending
          some ({ w with pending := [] }, some errs)
      | none, [] => some (w, some [])
      | none, _ :: _ => none

inductive Op (K V E : Type) where
  | add (fn : Registration K V E)
  | flush (r : Option Nat)

/-- The world after the calls, and what each `Flush` returned. -/
def World.run : World K V E → List (Op K V E) → Option (World K V E × List (Option (List (Option E))))
  | w, [] => some (w, [])
  | w, .add fn :: ops => (w.add fn).run ops
  | w, .flush r :: ops =>
      match w.flush r with
      | some (w, errs) =>
          match w.run ops with
          | some (w, returned) => some (w, errs :: returned)
          | none => none
      | none => none

/-- The functions that are added. -/
def added : List (Op K V E) → List (Registration K V E)
  | [] => []
  | .add fn :: ops => fn :: added ops
  | .flush _ :: ops => added ops

/-- The number of calls of `Flush`. -/
def flushes : List (Op K V E) → Nat
  | [] => 0
  | .add _ :: ops => flushes ops
  | .flush _ :: ops => flushes ops + 1

/-- The functions run one after the other on a registry. -/
def runAll : List (Registration K V E) → Registry K V → Registry K V × List (Option E)
  | [], reg => (reg, [])
  | fn :: fns, reg =>
      let (reg, err) := fn reg
      let (reg, errs) := runAll fns reg
      (reg, err :: errs)

end Gopkg.PendingQueue
