import Mathlib.Algebra.Ring.Int.Defs
import Mathlib.Data.List.Chain
import Mathlib.Data.List.Forall2

/-!
# Filter pipeline

`pipeline/pipeline.go`, without the durations and without the calls of the logger.
-/

namespace Gopkg.FilterPipeline

/-- The code compares with `Critical` only. -/
inductive Criticality where
  | critical
  | enrichment
  | other (n : Int)
  deriving DecidableEq, Repr

structure Filter (T M E : Type) where
  name : String
  criticality : Criticality
  phase : Int
  -- The second argument is the metadata of the caller.
  apply : List T → M → Except E (List T)

structure StepLog where
  filterName : String
  criticality : Criticality
  phase : Int
  beforeCount : Nat
  afterCount : Nat
  removed : Int
  skipped : Bool
  error : String
  deriving DecidableEq, Repr

/-- `critical filter %s failed: %w` -/
structure CriticalError (E : Type) where
  filter : String
  cause : E
  deriving DecidableEq, Repr

structure Pipeline (T M E : Type) where
  filters : List (Filter T M E)

variable {T M E : Type} [ToString E]

/-- The loop of `Run`. -/
def runFilters (md : M) :
    List (Filter T M E) → List T → List StepLog → List StepLog × Except (CriticalError E) (List T)
  | [], current, logs => (logs, .ok current)
  | f :: fs, current, logs =>
      let before := current.length
      match f.apply current md with
      | .error err =>
          let entry : StepLog :=
            { filterName := f.name, criticality := f.criticality, phase := f.phase, beforeCount := before
              afterCount := before, removed := 0, skipped := false, error := toString err }
          if f.criticality = .critical then (logs ++ [entry], .error ⟨f.name, err⟩)
          else runFilters md fs current (logs ++ [{ entry with skipped := true }])
      | .ok result =>
          let entry : StepLog :=
            { filterName := f.name, criticality := f.criticality, phase := f.phase, beforeCount := before
              afterCount := result.length, removed := before - result.length, skipped := false, error := "" }
          runFilters md fs result (logs ++ [entry])

def Pipeline.run (p : Pipeline T M E) (items : List T) (md : M) :
    List StepLog × Except (CriticalError E) (List T) :=
  runFilters md p.filters items []

def Pipeline.runPhase (p : Pipeline T M E) (phase : Int) (items : List T) (md : M) :
    List StepLog × Except (CriticalError E) (List T) :=
  let sub : Pipeline T M E := { filters := p.filters.filter fun f => f.phase = phase }
  sub.run items md

/-- `RunPhase` for each phase, with the items of the one before, up to the first error. -/
def Pipeline.runPhases (p : Pipeline T M E) (md : M) :
    List Int → List T → List StepLog × Except (CriticalError E) (List T)
  | [], items => ([], .ok items)
  | phase :: phases, items =>
      match p.runPhase phase items md with
      | (logs, .error err) => (logs, .error err)
      | (logs, .ok result) =>
          let (logs', out) := p.runPhases md phases result
          (logs ++ logs', out)

/-! ## What the filters do to the items -/

/-- A filter that fails leaves the items as they are. -/
def Filter.pass (f : Filter T M E) (md : M) (items : List T) : List T :=
  match f.apply items md with
  | .ok result => result
  | .error _ => items

/-- The filters that succeed, one after the other. -/
def composed (md : M) (fs : List (Filter T M E)) (items : List T) : List T :=
  fs.foldl (fun items f => f.pass md items) items

/-- The entry is one for the filter. -/
structure StepLog.IsFor (l : StepLog) (f : Filter T M E) : Prop where
  filterName : l.filterName = f.name
  criticality : l.criticality = f.criticality
  phase : l.phase = f.phase

end Gopkg.FilterPipeline
