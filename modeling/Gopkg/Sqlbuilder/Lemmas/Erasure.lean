import Mathlib.Data.List.Induction
import Gopkg.Sqlbuilder.Query

/-!
# Programs without their values

What is left of a program that uses builders when the values that it binds are erased: the tables, the columns and the
operators, and whether each optional condition is there.
-/

namespace Gopkg.Sqlbuilder

variable {V : Type}

/-- Some text in place of any other. -/
def eraseText (s : String) : String := if s = "" then "" else "?"

def Call.erase : Call V → Call Unit
  | .select columns => .select columns
  | .where' col _ => .where' col .nil
  | .whereOp col op _ => .whereOp col op .nil
  | .whereNotEmpty col s => .whereNotEmpty col (eraseText s)
  | .whereNotNil col .nil => .whereNotNil col .nil
  | .whereNotNil col _ => .whereNotNil col (.bool true)
  | .whereBool col _ gate => .whereBool col true gate
  | .whereLike col pattern => .whereLike col (eraseText pattern)
  | .whereMultiLike pattern cols => .whereMultiLike (eraseText pattern) cols
  | .orderBy clause => .orderBy clause

def Op.erase : Op V → Op Unit
  | .new table => .new table
  | .call i c => .call i c.erase
  | .clone i => .clone i

def Condition.erase : Condition V → Condition Unit
  | .compare col op _ => .compare col op .nil
  | .anyLike cols _ => .anyLike cols ""

def Query.erase (q : Query V) : Query Unit where
  table := q.table
  columns := q.columns
  orderBy := q.orderBy
  conditions := q.conditions.map Condition.erase

/-! ## Texts -/

theorem Condition.render_erase (n : Nat) (cond : Condition V) : cond.erase.render n = cond.render n := by
  cases cond <;> rfl

theorem Query.clauses_erase (q : Query V) : q.erase.clauses = q.clauses := by
  refine List.ext_getElem? fun i => ?_
  simp [Query.clauses, Query.erase, Function.comp_def, Condition.render_erase]

/-! ## Calls -/

theorem eraseText_eq_empty (s : String) : eraseText s = "" ↔ s = "" := by
  rw [eraseText]
  split
  next h => simp [h]
  next h => simp [h]

theorem Condition.erase_erase (cond : Condition V) : cond.erase.erase = cond.erase := by
  cases cond <;> rfl

/-- A call adds a condition if it does so without its value, and the same one but for the value. -/
theorem Call.condition_erase (c : Call V) :
    c.erase.condition.map Condition.erase = c.condition.map Condition.erase := by
  cases c with
  | select _ | orderBy _ | where' _ _ | whereOp _ _ _ => rfl
  | whereNotEmpty col s | whereLike col s =>
      simp only [Call.erase, Call.condition, eraseText_eq_empty]
      split <;> rfl
  | whereNotNil col v => cases v <;> rfl
  | whereBool col v gate => cases gate <;> rfl
  | whereMultiLike pattern cols =>
      simp only [Call.erase, Call.condition, eraseText_eq_empty]
      split <;> rfl

theorem Query.erase_call (q : Query V) (c : Call V) : (q.call c).erase = (q.erase.call c.erase).erase := by
  have hconds : c.condition.toList.map Condition.erase = c.erase.condition.toList.map Condition.erase := by
    have h := congrArg Option.toList c.condition_erase
    simpa only [Option.toList_map] using h.symm
  have hcolumns : (q.call c).columns = (q.erase.call c.erase).columns := by
    cases c with
    | whereNotNil col v => cases v <;> rfl
    | _ => rfl
  have horder : (q.call c).orderBy = (q.erase.call c.erase).orderBy := by
    cases c with
    | whereNotNil col v => cases v <;> rfl
    | _ => rfl
  rw [Query.erase, Query.erase, hcolumns, horder]
  congr 1
  simp [Query.call, Query.erase, hconds, Condition.erase_erase]

theorem Query.erase_erase (q : Query V) : q.erase.erase = q.erase := by
  simp [Query.erase, Condition.erase_erase]

/-! ## Programs -/

theorem eraseText_eraseText (s : String) : eraseText (eraseText s) = eraseText s := by
  by_cases h : s = ""
  · simp [eraseText, h]
  · simp [eraseText, h]

theorem Call.erase_erase (c : Call V) : c.erase.erase = c.erase := by
  cases c with
  | whereNotEmpty _ _ | whereLike _ _ | whereMultiLike _ _ => simp only [Call.erase, eraseText_eraseText]
  | whereNotNil col v => cases v <;> rfl
  | _ => rfl

theorem Op.erase_erase (op : Op V) : op.erase.erase = op.erase := by
  cases op with
  | call i c => exact congrArg (Op.call i) c.erase_erase
  | new _ | clone _ => rfl

theorem stepQueries_erase (qs : List (Query V)) (op : Op V) :
    (stepQueries qs op).map Query.erase = (stepQueries (qs.map Query.erase) op.erase).map Query.erase := by
  have hidem : (qs.map Query.erase).map Query.erase = qs.map Query.erase := by
    rw [List.map_map]
    exact List.map_congr_left fun q _ => q.erase_erase
  cases op with
  | new table => simp [stepQueries, Op.erase, hidem, Query.erase]
  | call i c =>
      cases hq : qs[i]? with
      | none => simp [stepQueries, Op.erase, hq, hidem]
      | some q => simp [stepQueries, Op.erase, hq, List.map_set, hidem, q.erase_call c]
  | clone i =>
      cases hq : qs[i]? with
      | none => simp [stepQueries, Op.erase, hq, hidem]
      | some q => simp [stepQueries, Op.erase, hq, hidem, q.erase_erase]

theorem queries_snoc (ops : List (Op V)) (op : Op V) : queries (ops ++ [op]) = stepQueries (queries ops) op := by
  simp [queries]

theorem queries_erase (ops : List (Op V)) :
    (queries ops).map Query.erase = (queries (ops.map Op.erase)).map Query.erase := by
  induction ops using List.reverseRecOn with
  | nil => rfl
  | append_singleton ops op ih =>
      rw [List.map_append, List.map_singleton, queries_snoc, queries_snoc, stepQueries_erase, ih,
        stepQueries_erase (queries (ops.map Op.erase)), op.erase_erase]

end Gopkg.Sqlbuilder
