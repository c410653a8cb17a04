import Gopkg.Sqlbuilder.Lemmas.Erasure
import Gopkg.Sqlbuilder.Lemmas.Placeholders
import Gopkg.Sqlbuilder.Lemmas.Refinement

/-!
# Theorems about the query builder
-/

namespace Gopkg.Sqlbuilder

variable {V : Type} {b b' : Builder} {m m' : Store V} {q : Query V} {c : Call V} {cond : Condition V}
  {qs : List (Query V)} {ops : List (Op V)}

/-! ## Conditions without a `$` of their own -/

theorem Call.condition_clean (hnames : ∀ name ∈ c.names, '$' ∉ name.toList) (h : c.condition = some cond) :
    cond.Clean := by
  have hfixed : '$' ∉ "=".toList ∧ '$' ∉ "ILIKE".toList := by decide
  cases c with
  | select | orderBy => simp [Call.condition] at h
  | where' col v =>
      cases h
      exact ⟨hnames col (by simp [Call.names]), hfixed.1⟩
  | whereOp col op v =>
      cases h
      exact ⟨hnames col (by simp [Call.names]), hnames op (by simp [Call.names])⟩
  | whereNotEmpty col s =>
      obtain ⟨_, rfl⟩ : s ≠ "" ∧ _ = cond := by simpa [Call.condition] using h
      exact ⟨hnames col (by simp [Call.names]), hfixed.1⟩
  | whereNotNil col v =>
      cases v <;> cases h
      all_goals exact ⟨hnames col (by simp [Call.names]), hfixed.1⟩
  | whereBool col v gate =>
      obtain ⟨_, rfl⟩ : gate = true ∧ _ = cond := by simpa [Call.condition] using h
      exact ⟨hnames col (by simp [Call.names]), hfixed.1⟩
  | whereLike col pattern =>
      obtain ⟨_, rfl⟩ : pattern ≠ "" ∧ _ = cond := by simpa [Call.condition] using h
      exact ⟨hnames col (by simp [Call.names]), hfixed.2⟩
  | whereMultiLike pattern cols =>
      obtain ⟨⟨_, hcols⟩, rfl⟩ : (pattern ≠ "" ∧ cols ≠ []) ∧ _ = cond := by simpa [Call.condition] using h
      exact ⟨hcols, hnames⟩

def Query.Clean (q : Query V) : Prop := ∀ cond ∈ q.conditions, cond.Clean

theorem Query.Clean.call (h : q.Clean) (hnames : ∀ name ∈ c.names, '$' ∉ name.toList) : (q.call c).Clean := by
  intro cond hcond
  rcases List.mem_append.mp hcond with hold | hnew
  · exact h cond hold
  · exact Call.condition_clean hnames (by simpa using hnew)

theorem stepQueries_clean (h : ∀ q ∈ qs, q.Clean) {op : Op V} (hnames : ∀ name ∈ op.names, '$' ∉ name.toList) :
    ∀ q ∈ stepQueries qs op, q.Clean := by
  intro q hq
  cases op with
  | new table =>
      rcases List.mem_append.mp hq with hold | hnew
      · exact h q hold
      · rw [List.mem_singleton.mp hnew]
        exact fun _ hcond => absurd hcond List.not_mem_nil
  | call i c =>
      cases hi : qs[i]? with
      | none => exact h q (by simpa [stepQueries, hi] using hq)
      | some q₀ =>
          simp only [stepQueries, hi] at hq
          rcases List.mem_or_eq_of_mem_set hq with hold | rfl
          · exact h q hold
          · exact (h q₀ (List.mem_of_getElem? hi)).call hnames
  | clone i =>
      cases hi : qs[i]? with
      | none => exact h q (by simpa [stepQueries, hi] using hq)
      | some q₀ =>
          simp only [stepQueries, hi] at hq
          rcases List.mem_append.mp hq with hold | hnew
          · exact h q hold
          · exact List.mem_singleton.mp hnew ▸ h q₀ (List.mem_of_getElem? hi)

theorem queries_clean (hnames : ∀ op ∈ ops, ∀ name ∈ op.names, '$' ∉ name.toList) : ∀ q ∈ queries ops, q.Clean := by
  have hrun : ∀ qs : List (Query V), (∀ q ∈ qs, q.Clean) → ∀ q ∈ ops.foldl stepQueries qs, q.Clean := by
    induction ops with
    | nil => exact fun _ h => h
    | cons op ops ih =>
        intro qs h
        have hstep := stepQueries_clean h (hnames op List.mem_cons_self)
        exact ih (fun op' hop' => hnames op' (List.mem_cons_of_mem _ hop')) _ hstep
  exact hrun [] fun _ hq => absurd hq List.not_mem_nil

/-- Only calls on a builder change its query. -/
theorem foldl_stepQueries_getElem? {i : Nat} (hq : qs[i]? = some q) (hops : ∀ op ∈ ops, ∀ c, op ≠ .call i c) :
    (ops.foldl stepQueries qs)[i]? = some q := by
  induction ops generalizing qs with
  | nil => exact hq
  | cons op ops ih =>
      refine ih ?_ fun op' hop' => hops op' (List.mem_cons_of_mem _ hop')
      have hlt := (List.getElem?_eq_some_iff.mp hq).1
      cases op with
      | new table => rw [stepQueries, List.getElem?_append_left hlt, hq]
      | call j c =>
          have hne : j ≠ i := fun heq => hops _ List.mem_cons_self c (heq ▸ rfl)
          rw [stepQueries]
          split
          · rw [List.getElem?_set_ne hne, hq]
          · exact hq
      | clone j =>
          rw [stepQueries]
          split
          · rw [List.getElem?_append_left hlt, hq]
          · exact hq

/-! ## Rendered queries -/

def whereText (clauses : List String) : String :=
  if clauses = [] then "" else " WHERE " ++ " AND ".intercalate clauses

/-- What `BuildListQuery` adds after the conditions. -/
def pageText (orderBy : String) (limit page : Int64) : String :=
  let limit := if limit ≤ 0 then 50 else limit
  let page := if page ≤ 0 then 1 else page
  (if orderBy ≠ "" then " ORDER BY " ++ orderBy else "") ++ s!" LIMIT {limit} OFFSET {(page - 1) * limit}"

theorem Builder.Represents.len_pos_iff (h : b.Represents m q) : b.conds.len > 0 ↔ b.conds.read m.clauses ≠ [] := by
  rw [← h.conds_valid.length_read, gt_iff_lt, List.length_pos_iff]

theorem Builder.Represents.buildCountQuery_eq (h : b.Represents m q) :
    b.buildCountQuery m = ("SELECT COUNT(*) FROM " ++ b.table ++ whereText (b.conds.read m.clauses), b.args) := by
  unfold Builder.buildCountQuery whereText
  by_cases hc : b.conds.read m.clauses = [] <;> simp [h.len_pos_iff, hc, String.append_assoc]

theorem Builder.Represents.buildListQuery_eq (h : b.Represents m q) (columns : String) (limit page : Int64) :
    b.buildListQuery m columns limit page =
      ("SELECT " ++ (if columns = "" then b.columns else columns) ++ " FROM " ++ b.table ++
        whereText (b.conds.read m.clauses) ++ pageText b.orderBy limit page, b.args) := by
  unfold Builder.buildListQuery whereText pageText
  by_cases hc : b.conds.read m.clauses = [] <;> by_cases ho : b.orderBy = "" <;>
    simp [h.len_pos_iff, hc, ho, String.append_assoc]

/-- The SQL of a count with the arguments that the slice holds. -/
def Builder.countQuery (b : Builder) (m : Store V) : String × List (Value V) :=
  ((b.buildCountQuery m).1, (b.buildCountQuery m).2.read m.values)

def Builder.listQuery (b : Builder) (m : Store V) (columns : String) (limit page : Int64) :
    String × List (Value V) :=
  ((b.buildListQuery m columns limit page).1, (b.buildListQuery m columns limit page).2.read m.values)

/-- What a builder renders is up to its query. -/
theorem Builder.Represents.render_eq (h : b.Represents m q) (h' : b'.Represents m' q) :
    b'.countQuery m' = b.countQuery m ∧ b'.listQuery m' = b.listQuery m := by
  have hcount : b'.countQuery m' = b.countQuery m := by
    simp only [Builder.countQuery, h.buildCountQuery_eq, h'.buildCountQuery_eq, h.conds_read, h'.conds_read,
      h.args_read, h'.args_read, h.table, h'.table]
  have hlist : b'.listQuery m' = b.listQuery m := by
    funext columns limit page
    simp only [Builder.listQuery, h.buildListQuery_eq, h'.buildListQuery_eq, h.conds_read, h'.conds_read,
      h.args_read, h'.args_read, h.table, h'.table, h.columns, h'.columns, h.orderBy, h'.orderBy]
  exact ⟨hcount, hlist⟩

/-! ## Placeholders and arguments -/

theorem Query.clauses_getElem? {k : Nat} (h : q.conditions[k]? = some cond) :
    q.clauses[k]? = some (cond.render (k + 1)) := by
  simp [Query.clauses, h]

theorem Query.values_getElem? {k : Nat} (h : q.conditions[k]? = some cond) : q.values[k]? = some cond.value := by
  simp [Query.values, h]

/-- The clause of a condition mentions the argument with its value. -/
theorem Query.Clean.mentions {k n : Nat} (hq : q.Clean) (h : q.conditions[k]? = some cond)
    (hn : n ∈ placeholders (cond.render (k + 1))) : q.values[n - 1]? = some cond.value := by
  rw [(mem_placeholders_render (hq cond (List.mem_of_getElem? h))).mp hn]
  exact Query.values_getElem? h

theorem Query.Clean.placeholders_iff (hq : q.Clean) (n : Nat) :
    (∃ clause ∈ q.clauses, n ∈ placeholders clause) ↔ 1 ≤ n ∧ n ≤ q.values.length := by
  have hlength : q.values.length = q.conditions.length := by simp [Query.values]
  rw [hlength]
  constructor
  · rintro ⟨clause, hclause, hn⟩
    obtain ⟨k, hk, rfl⟩ := List.mem_mapIdx.mp hclause
    have hk1 := (mem_placeholders_render (hq _ (List.getElem_mem hk))).mp hn
    omega
  · rintro ⟨hpos, hle⟩
    obtain ⟨k, rfl⟩ : ∃ k, n = k + 1 := ⟨n - 1, by omega⟩
    obtain ⟨cond, hcond⟩ : ∃ cond, q.conditions[k]? = some cond := ⟨_, List.getElem?_eq_getElem hle⟩
    refine ⟨cond.render (k + 1), List.mem_of_getElem? (Query.clauses_getElem? hcond), ?_⟩
    exact (mem_placeholders_render (hq cond (List.mem_of_getElem? hcond))).mpr rfl

/-- In every builder of a program there are as many arguments as parameters, the conditions mention every argument, and
each condition mentions the value that was bound with it. A call that binds a value adds the condition and the argument
at the end. Both queries have the same conditions and arguments, and calls on other builders change neither. -/
theorem placeholders_and_arguments_line_up (grow : Nat → Nat → Nat) (ops : List (Op V))
    (hnames : ∀ op ∈ ops, ∀ name ∈ op.names, '$' ∉ name.toList) (i : Nat) (b : Builder)
    (hb : (World.init.run grow ops).builders[i]? = some b) :
    let w := World.init.run grow ops
    let clauses := b.conds.read w.store.clauses
    let args := b.args.read w.store.values
    b.paramSeq = args.length ∧
    (∀ n, (∃ clause ∈ clauses, n ∈ placeholders clause) ↔ 1 ≤ n ∧ n ≤ args.length) ∧
    (∃ q, (queries ops)[i]? = some q ∧ clauses.length = q.conditions.length ∧
      ∀ (k : Nat) (cond : Condition V), q.conditions[k]? = some cond →
        clauses[k]? = some (cond.render (k + 1)) ∧
        ∀ n ∈ placeholders (cond.render (k + 1)), args[n - 1]? = some cond.value) ∧
    (∀ c cond, c.condition = some cond → ∃ b', (w.step grow (.call i c)).builders[i]? = some b' ∧
      b'.conds.read (w.step grow (.call i c)).store.clauses = clauses ++ [cond.render (args.length + 1)] ∧
      b'.args.read (w.step grow (.call i c)).store.values = args ++ [cond.value]) ∧
    (∀ columns limit page,
      b.countQuery w.store = ("SELECT COUNT(*) FROM " ++ b.table ++ whereText clauses, args) ∧
      b.listQuery w.store columns limit page =
        ("SELECT " ++ (if columns = "" then b.columns else columns) ++ " FROM " ++ b.table ++ whereText clauses ++
          pageText b.orderBy limit page, args)) ∧
    ∀ ops', (∀ op ∈ ops', ∀ c, op ≠ .call i c) →
      ∃ b', (w.run grow ops').builders[i]? = some b' ∧
        b'.countQuery (w.run grow ops').store = b.countQuery w.store ∧
        b'.listQuery (w.run grow ops').store = b.listQuery w.store := by
  intro w clauses args
  have href : w.Refines (queries ops) := .run grow ops
  obtain ⟨q, hq, hrep⟩ := href.query hb
  have hclean : q.Clean := queries_clean hnames q (List.mem_of_getElem? hq)
  have hclauses : clauses = q.clauses := hrep.conds_read
  have hargs : args = q.values := hrep.args_read
  have hlength : args.length = q.conditions.length := by simp [hargs, Query.values]
  refine ⟨?_, ?_, ⟨q, hq, ?_, ?_⟩, ?_, ?_, ?_⟩
  · rw [hrep.paramSeq, hlength]
  · rw [hclauses, hargs]
    exact hclean.placeholders_iff
  · simp [hclauses, Query.clauses]
  · intro k cond hcond
    rw [hclauses, hargs]
    exact ⟨Query.clauses_getElem? hcond, fun n hn => hclean.mentions hcond hn⟩
  · intro c cond hc
    have hstep : w.step grow (.call i c) =
        ⟨(b.add grow w.store cond).2, w.builders.set i (b.add grow w.store cond).1⟩ := by
      simp only [World.step, show w.builders[i]? = some b from hb, call_of_some hc]
    rw [hstep]
    refine ⟨_, Lts.getElem?_set_slot hb, ?_, ?_⟩
    · rw [hlength, ← hrep.paramSeq]
      exact hrep.conds_valid.read_append grow _
    · exact hrep.args_valid.read_append grow _
  · intro columns limit page
    rw [Builder.countQuery, Builder.listQuery, hrep.buildCountQuery_eq, hrep.buildListQuery_eq]
    exact ⟨rfl, rfl⟩
  · intro ops' hops
    have href' : (w.run grow ops').Refines (queries (ops ++ ops')) := by
      have hrun := World.Refines.run grow (ops ++ ops')
      rwa [World.run, List.foldl_append] at hrun
    have hq' : (queries (ops ++ ops'))[i]? = some q := by
      rw [queries, List.foldl_append]
      exact foldl_stepQueries_getElem? hq hops
    obtain ⟨b', hb'⟩ : ∃ b', (w.run grow ops').builders[i]? = some b' :=
      ⟨_, List.getElem?_eq_getElem (href'.length ▸ (List.getElem?_eq_some_iff.mp hq').1)⟩
    exact ⟨b', hb', hrep.render_eq (href'.represents i b' q hb' hq')⟩

theorem placeholders_and_arguments_line_up_users :
    let ops : List (Op Nat) := [.new "users", .call 0 (.whereOp "age" "<" (.other 7)), .clone 0]
    ∃ b, (World.init.run (fun _ _ => 0) ops).builders[1]? = some b ∧ b.paramSeq = 1 ∧
      b.paramSeq = (b.args.read (World.init.run (fun _ _ => 0) ops).store.values).length :=
  ⟨⟨"users", "*", ⟨1, 1, 1⟩, ⟨1, 1, 1⟩, "", 1⟩, rfl, rfl,
    (placeholders_and_arguments_line_up _ _ (by decide) 1 _ rfl).1⟩

/-! ## Values and the text -/

/-- What a builder renders but for its arguments is up to its query without the values. -/
theorem Builder.Represents.text_eq {V' : Type} {b' : Builder} {m' : Store V'} {q' : Query V'} (h : b.Represents m q)
    (h' : b'.Represents m' q') (herase : q.erase = q'.erase) : (b.countQuery m).1 = (b'.countQuery m').1 ∧
      (∀ columns limit page, (b.listQuery m columns limit page).1 = (b'.listQuery m' columns limit page).1) ∧
      (b.countQuery m).2.length = (b'.countQuery m').2.length := by
  have hclauses : q.clauses = q'.clauses := by rw [← q.clauses_erase, herase, q'.clauses_erase]
  have htable : q.table = q'.table := congrArg Query.table herase
  have hcolumns : q.columns = q'.columns := congrArg Query.columns herase
  have horder : q.orderBy = q'.orderBy := congrArg Query.orderBy herase
  have hlength : q.conditions.length = q'.conditions.length := by
    simpa [Query.erase] using congrArg (fun q => q.conditions.length) herase
  refine ⟨?_, fun columns limit page => ?_, ?_⟩
  · rw [Builder.countQuery, Builder.countQuery, h.buildCountQuery_eq, h'.buildCountQuery_eq, h.conds_read,
      h'.conds_read, h.table, h'.table, hclauses, htable]
  · rw [Builder.listQuery, Builder.listQuery, h.buildListQuery_eq, h'.buildListQuery_eq, h.conds_read, h'.conds_read,
      h.table, h'.table, h.columns, h'.columns, h.orderBy, h'.orderBy, hclauses, htable, hcolumns, horder]
  · rw [Builder.countQuery, Builder.countQuery, h.buildCountQuery_eq, h'.buildCountQuery_eq, h.args_read,
      h'.args_read, Query.values, Query.values, List.length_map, List.length_map, hlength]

/-- The SQL of a program's builders does not depend on the values that the program binds, nor on how slices grow: two
programs that differ in values only, with the same optional conditions, send the same texts with as many arguments. -/
theorem sql_text_independent_of_values {V' : Type} (grow grow' : Nat → Nat → Nat) (ops : List (Op V))
    (ops' : List (Op V')) (herase : ops.map Op.erase = ops'.map Op.erase) :
    let w := World.init.run grow ops
    let w' := World.init.run grow' ops'
    w.builders.length = w'.builders.length ∧
    ∀ (i : Nat) (b b' : Builder), w.builders[i]? = some b → w'.builders[i]? = some b' →
      (b.countQuery w.store).1 = (b'.countQuery w'.store).1 ∧
      (∀ columns limit page,
        (b.listQuery w.store columns limit page).1 = (b'.listQuery w'.store columns limit page).1) ∧
      (b.countQuery w.store).2.length = (b'.countQuery w'.store).2.length := by
  intro w w'
  have href : w.Refines (queries ops) := .run grow ops
  have href' : w'.Refines (queries ops') := .run grow' ops'
  have hqueries : (queries ops).map Query.erase = (queries ops').map Query.erase := by
    rw [queries_erase, queries_erase ops', herase]
  constructor
  · have hlength := congrArg List.length hqueries
    rwa [List.length_map, List.length_map, ← href.length, ← href'.length] at hlength
  · intro i b b' hb hb'
    obtain ⟨q, hq, hrep⟩ := href.query hb
    obtain ⟨q', hq', hrep'⟩ := href'.query hb'
    refine hrep.text_eq hrep' (Option.some.inj ?_)
    have hi := congrArg (·[i]?) hqueries
    simpa [hq, hq'] using hi

/-- A program that looks for a user by name. -/
def findUser (name : String) : List (Op Unit) := [.new "users", .call 0 (.whereNotEmpty "name" name), .clone 0]

theorem sql_text_independent_of_values_quote :
    ∃ b b', (World.init.run (fun _ _ => 0) (findUser "Ann")).builders[1]? = some b ∧
      (World.init.run (fun _ _ => 0) (findUser "' OR 1=1 --")).builders[1]? = some b' ∧
      (b.countQuery (World.init.run (fun _ _ => 0) (findUser "Ann")).store).1 =
        (b'.countQuery (World.init.run (fun _ _ => 0) (findUser "' OR 1=1 --")).store).1 :=
  ⟨_, _, rfl, rfl,
    ((sql_text_independent_of_values _ _ (findUser "Ann") (findUser "' OR 1=1 --") rfl).2 1 _ _ rfl rfl).1⟩

end Gopkg.Sqlbuilder
