import Gopkg.Sqlbuilder.Builder

/-!
# Queries as values

What a builder is for: a query with a list of conditions, each with its own value. A clone is the same query, and a call
makes a query of a query; nothing is shared.
-/

namespace Gopkg.Sqlbuilder

variable {V : Type}

inductive Condition (V : Type) where
  | compare (col op : String) (v : Value V)
  | anyLike (cols : List String) (pattern : String)

namespace Condition

/-- The text of the condition when its value is the argument `n`. -/
def render (n : Nat) : Condition V → String
  | compare col op _ => s!"{col} {op} ${n}"
  | anyLike cols _ => "(" ++ " OR ".intercalate (cols.map fun c => s!"{c} ILIKE ${n}") ++ ")"

def value : Condition V → Value V
  | compare _ _ v => v
  | anyLike _ pattern => .string pattern

/-- It mentions its value, and its names have no `$`. -/
def Clean : Condition V → Prop
  | compare col op _ => '$' ∉ col.toList ∧ '$' ∉ op.toList
  | anyLike cols _ => cols ≠ [] ∧ ∀ col ∈ cols, '$' ∉ col.toList

end Condition

/-- The condition that a call adds. -/
def Call.condition : Call V → Option (Condition V)
  | .select _ | .orderBy _ => none
  | .where' col v => some (.compare col "=" v)
  | .whereOp col op v => some (.compare col op v)
  | .whereNotEmpty col s => if s = "" then none else some (.compare col "=" (.string s))
  | .whereNotNil _ .nil => none
  | .whereNotNil col v => some (.compare col "=" v)
  | .whereBool col v gate => if gate then some (.compare col "=" (.bool v)) else none
  | .whereLike col pattern => if pattern = "" then none else some (.compare col "ILIKE" (.string pattern))
  | .whereMultiLike pattern cols => if pattern = "" ∨ cols = [] then none else some (.anyLike cols pattern)

structure Query (V : Type) where
  table : String
  columns : String
  orderBy : String
  conditions : List (Condition V)

namespace Query

def call (q : Query V) (c : Call V) : Query V where
  table := q.table
  columns := match c with
    | .select columns => columns
    | _ => q.columns
  orderBy := match c with
    | .orderBy clause => clause
    | _ => q.orderBy
  conditions := q.conditions ++ c.condition.toList

def clauses (q : Query V) : List String := q.conditions.mapIdx fun i cond => cond.render (i + 1)

def values (q : Query V) : List (Value V) := q.conditions.map Condition.value

end Query

def stepQueries (qs : List (Query V)) : Op V → List (Query V)
  | .new table => qs ++ [{ table, columns := "*", orderBy := "", conditions := [] }]
  | .call i c =>
      match qs[i]? with
      | some q => qs.set i (q.call c)
      | none => qs
  | .clone i =>
      match qs[i]? with
      | some q => qs ++ [q]
      | none => qs

/-- The queries of the builders of a program. -/
def queries (ops : List (Op V)) : List (Query V) := ops.foldl stepQueries []

end Gopkg.Sqlbuilder
