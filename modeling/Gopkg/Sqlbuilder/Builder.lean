import Gopkg.Slice.Heap

/-!
# Query builder

`sqlbuilder/sqlbuilder.go`. The conditions and the arguments of a builder are slices, and a clone is made by appending
to the nil slice; so both are kept here as slices over a heap that all builders share.
-/

namespace Gopkg.Sqlbuilder

/-- A value of type `any`. -/
inductive Value (V : Type) where
  | nil
  | string (s : String)
  | bool (b : Bool)
  | other (v : V)
  deriving DecidableEq, Repr

instance {V : Type} : Inhabited (Value V) := ⟨.nil⟩

variable {V : Type}

structure Builder where
  table : String
  columns : String
  -- The field `where`.
  conds : Slice
  args : Slice
  orderBy : String
  paramSeq : Nat
  deriving DecidableEq, Repr

structure Store (V : Type) where
  clauses : Heap String
  values : Heap (Value V)

def new (table : String) : Builder where
  table := table
  columns := "*"
  conds := .nil
  args := .nil
  orderBy := ""
  paramSeq := 0

section Methods

variable (grow : Nat → Nat → Nat) (b : Builder) (m : Store V)

/-- What the methods that add a condition do: `clause` is the format of the condition, given the new `paramSeq`. -/
def Builder.bind (clause : Nat → String) (v : Value V) : Builder × Store V :=
  let paramSeq := b.paramSeq + 1
  let (conds, clauses) := b.conds.append grow [clause paramSeq] m.clauses
  let (args, values) := b.args.append grow [v] m.values
  ({ b with conds, args, paramSeq }, { clauses, values })

def Builder.where' (col : String) (v : Value V) : Builder × Store V :=
  b.bind grow m (fun n => s!"{col} = ${n}") v

def Builder.whereOp (col op : String) (v : Value V) : Builder × Store V :=
  b.bind grow m (fun n => s!"{col} {op} ${n}") v

def Builder.whereNotEmpty (col s : String) : Builder × Store V :=
  if s = "" then (b, m) else b.where' grow m col (.string s)

def Builder.whereNotNil (col : String) (v : Value V) : Builder × Store V :=
  match v with
  | .nil => (b, m)
  | v => b.where' grow m col v

def Builder.whereBool (col : String) (v gate : Bool) : Builder × Store V :=
  if !gate then (b, m) else b.where' grow m col (.bool v)

def Builder.whereLike (col pattern : String) : Builder × Store V :=
  if pattern = "" then (b, m) else b.bind grow m (fun n => s!"{col} ILIKE ${n}") (.string pattern)

def Builder.whereMultiLike (pattern : String) (cols : List String) : Builder × Store V :=
  if pattern = "" ∨ cols.length = 0 then (b, m)
  else
    b.bind grow m (fun n => "(" ++ " OR ".intercalate (cols.map fun c => s!"{c} ILIKE ${n}") ++ ")") (.string pattern)

def Builder.clone : Builder × Store V :=
  let (conds, clauses) := Slice.nil.append grow (b.conds.read m.clauses) m.clauses
  let (args, values) := Slice.nil.append grow (b.args.read m.values) m.values
  ({ b with conds, args }, { clauses, values })

/-- The SQL, and the arguments as the slice of the builder. -/
def Builder.buildCountQuery : String × Slice :=
  let q := "SELECT COUNT(*) FROM " ++ b.table
  let q := if b.conds.len > 0 then q ++ " WHERE " ++ " AND ".intercalate (b.conds.read m.clauses) else q
  (q, b.args)

def Builder.buildListQuery (columns : String) (limit page : Int64) : String × Slice :=
  let cols := if columns = "" then b.columns else columns
  let limit := if limit ≤ 0 then 50 else limit
  let page := if page ≤ 0 then 1 else page
  let offset := (page - 1) * limit
  let q := "SELECT " ++ cols ++ " FROM " ++ b.table
  let q := if b.conds.len > 0 then q ++ " WHERE " ++ " AND ".intercalate (b.conds.read m.clauses) else q
  let q := if b.orderBy ≠ "" then q ++ " ORDER BY " ++ b.orderBy else q
  (q ++ s!" LIMIT {limit} OFFSET {offset}", b.args)

end Methods

/-! ## Programs that use builders -/

inductive Call (V : Type) where
  | select (columns : String)
  | where' (col : String) (v : Value V)
  | whereOp (col op : String) (v : Value V)
  | whereNotEmpty (col s : String)
  | whereNotNil (col : String) (v : Value V)
  | whereBool (col : String) (v gate : Bool)
  | whereLike (col pattern : String)
  | whereMultiLike (pattern : String) (cols : List String)
  | orderBy (clause : String)

def Builder.call (grow : Nat → Nat → Nat) (b : Builder) (m : Store V) : Call V → Builder × Store V
  | .select columns => ({ b with columns }, m)
  | .where' col v => b.where' grow m col v
  | .whereOp col op v => b.whereOp grow m col op v
  | .whereNotEmpty col s => b.whereNotEmpty grow m col s
  | .whereNotNil col v => b.whereNotNil grow m col v
  | .whereBool col v gate => b.whereBool grow m col v gate
  | .whereLike col pattern => b.whereLike grow m col pattern
  | .whereMultiLike pattern cols => b.whereMultiLike grow m pattern cols
  | .orderBy clause => ({ b with orderBy := clause }, m)

/-- The builders of a program are numbered as they are made. -/
inductive Op (V : Type) where
  | new (table : String)
  | call (i : Nat) (c : Call V)
  | clone (i : Nat)

structure World (V : Type) where
  store : Store V
  builders : List Builder

def World.init : World V := ⟨⟨[], []⟩, []⟩

def World.step (grow : Nat → Nat → Nat) (w : World V) : Op V → World V
  | .new table => { w with builders := w.builders ++ [Sqlbuilder.new table] }
  | .call i c =>
      match w.builders[i]? with
      | some b =>
          let (b, store) := b.call grow w.store c
          { store, builders := w.builders.set i b }
      | none => w
  | .clone i =>
      match w.builders[i]? with
      | some b =>
          let (c, store) := b.clone grow w.store
          { store, builders := w.builders ++ [c] }
      | none => w

def World.run (grow : Nat → Nat → Nat) (w : World V) (ops : List (Op V)) : World V := ops.foldl (World.step grow) w

/-- The strings for columns and operators among the arguments of a call. -/
def Call.names : Call V → List String
  | .select _ | .orderBy _ => []
  | .where' col _ | .whereNotEmpty col _ | .whereNotNil col _ | .whereBool col _ _ | .whereLike col _ => [col]
  | .whereOp col op _ => [col, op]
  | .whereMultiLike _ cols => cols

def Op.names : Op V → List String
  | .new _ | .clone _ => []
  | .call _ c => c.names

/-! ## Placeholders -/

/-- The number of each `$` that is followed by digits. -/
def placeholdersIn : List Char → List Nat
  | [] => []
  | c :: cs =>
      let digits := cs.takeWhile Char.isDigit
      if c = '$' ∧ digits ≠ [] then Nat.ofDigitChars 10 digits 0 :: placeholdersIn cs else placeholdersIn cs

def placeholders (clause : String) : List Nat := placeholdersIn clause.toList

end Gopkg.Sqlbuilder
