import Gopkg.Lts.Slots
import Gopkg.Sqlbuilder.Query

/-!
# Builders represent queries

Every builder of a program represents its query, because the slices of two builders never share an array.
-/

namespace Gopkg.Sqlbuilder

open Lts

variable {V : Type} {grow : Nat → Nat → Nat} {b b' : Builder} {m : Store V} {q : Query V} {c : Call V}
  {cond : Condition V} {w : World V} {qs : List (Query V)}

/-! ## What a call does -/

/-- What a builder does with a condition. -/
def Builder.add (grow : Nat → Nat → Nat) (b : Builder) (m : Store V) (cond : Condition V) : Builder × Store V :=
  b.bind grow m (fun n => cond.render n) cond.value

/-- The format with a fixed operator is the one of `whereOp`. -/
theorem bind_operator_eq {between : String} (op : String) (hbetween : between = " " ++ op ++ " $") (col : String)
    (v : Value V) : b.bind grow m (fun n => s!"{col}{between}{n}") v = b.add grow m (.compare col op v) := by
  have hformat : ∀ n : Nat, s!"{col}{between}{n}" = (Condition.compare col op v).render n := by
    intro n
    subst hbetween
    simp only [Condition.render, ToString.toString, String.append_assoc]
  exact congrArg (fun clause => b.bind grow m clause v) (funext hformat)

theorem where'_eq (col : String) (v : Value V) : b.where' grow m col v = b.add grow m (.compare col "=" v) :=
  bind_operator_eq "=" rfl col v

theorem call_of_some (h : c.condition = some cond) : b.call grow m c = b.add grow m cond := by
  cases c with
  | select | orderBy => simp [Call.condition] at h
  | where' col v =>
      cases h
      exact where'_eq col v
  | whereOp col op v =>
      cases h
      rfl
  | whereNotEmpty col s =>
      obtain ⟨hs, rfl⟩ : s ≠ "" ∧ _ = cond := by simpa [Call.condition] using h
      exact (if_neg hs).trans (where'_eq col _)
  | whereNotNil col v =>
      cases v <;> cases h
      all_goals exact where'_eq col _
  | whereBool col v gate =>
      obtain ⟨rfl, rfl⟩ : gate = true ∧ _ = cond := by simpa [Call.condition] using h
      exact where'_eq col _
  | whereLike col pattern =>
      obtain ⟨hpattern, rfl⟩ : pattern ≠ "" ∧ _ = cond := by simpa [Call.condition] using h
      exact (if_neg hpattern).trans (bind_operator_eq "ILIKE" rfl col _)
  | whereMultiLike pattern cols =>
      obtain ⟨⟨hpattern, hcols⟩, rfl⟩ : (pattern ≠ "" ∧ cols ≠ []) ∧ _ = cond := by simpa [Call.condition] using h
      exact if_neg (by simp [hpattern, hcols])

/-- A call that adds no condition touches neither slice. -/
theorem call_of_none (h : c.condition = none) : b.call grow m c =
    ({ b with
        columns := match c with
          | .select columns => columns
          | _ => b.columns
        orderBy := match c with
          | .orderBy clause => clause
          | _ => b.orderBy }, m) := by
  cases c with
  | select | orderBy => rfl
  | where' | whereOp => simp [Call.condition] at h
  | whereNotEmpty col s =>
      have hs : s = "" := by simpa [Call.condition] using h
      simp [Builder.call, Builder.whereNotEmpty, hs]
  | whereNotNil col v =>
      cases v with
      | nil => rfl
      | string | bool | other => simp [Call.condition] at h
  | whereBool col v gate =>
      have hgate : gate = false := by simpa [Call.condition] using h
      simp [Builder.call, Builder.whereBool, hgate]
  | whereLike col pattern =>
      have hpattern : pattern = "" := by simpa [Call.condition] using h
      simp [Builder.call, Builder.whereLike, hpattern]
  | whereMultiLike pattern cols =>
      have hnone : pattern = "" ∨ cols = [] := by
        by_contra hsome
        simp [Call.condition, hsome] at h
      simp [Builder.call, Builder.whereMultiLike, hnone]

/-! ## One builder -/

structure Builder.Represents (b : Builder) (m : Store V) (q : Query V) : Prop where
  table : b.table = q.table
  columns : b.columns = q.columns
  orderBy : b.orderBy = q.orderBy
  paramSeq : b.paramSeq = q.conditions.length
  conds_valid : b.conds.Valid m.clauses
  conds_read : b.conds.read m.clauses = q.clauses
  args_valid : b.args.Valid m.values
  args_read : b.args.read m.values = q.values

def Builder.Apart (b b' : Builder) : Prop := b.conds.Apart b'.conds ∧ b.args.Apart b'.args

theorem Builder.Apart.symm (h : b.Apart b') : b'.Apart b := ⟨h.1.symm, h.2.symm⟩

theorem Query.clauses_snoc (q : Query V) (cond : Condition V) :
    Query.clauses { q with conditions := q.conditions ++ [cond] } =
      q.clauses ++ [cond.render (q.conditions.length + 1)] := by
  simp [Query.clauses, List.mapIdx_append]

theorem Builder.Represents.add (h : b.Represents m q) (grow : Nat → Nat → Nat) (cond : Condition V) :
    (b.add grow m cond).1.Represents (b.add grow m cond).2 { q with conditions := q.conditions ++ [cond] } where
  table := h.table
  columns := h.columns
  orderBy := h.orderBy
  paramSeq := by simp [Builder.add, Builder.bind, h.paramSeq]
  conds_valid := h.conds_valid.append grow _
  conds_read := by
    rw [Query.clauses_snoc, ← h.conds_read, ← h.paramSeq]
    exact h.conds_valid.read_append grow _
  args_valid := h.args_valid.append grow _
  args_read := by
    have hvalues : Query.values { q with conditions := q.conditions ++ [cond] } = q.values ++ [cond.value] := by
      simp [Query.values]
    rw [hvalues, ← h.args_read]
    exact h.args_valid.read_append grow _

theorem Builder.Represents.call (h : b.Represents m q) (grow : Nat → Nat → Nat) (c : Call V) :
    (b.call grow m c).1.Represents (b.call grow m c).2 (q.call c) := by
  cases hc : c.condition with
  | some cond =>
      have hq : q.call c = { q with conditions := q.conditions ++ [cond] } := by
        cases c <;> simp_all [Query.call, Call.condition]
      rw [call_of_some hc, hq]
      exact h.add grow cond
  | none =>
      have hconditions : (q.call c).conditions = q.conditions := by simp [Query.call, hc]
      rw [call_of_none hc]
      exact
        { table := h.table
          columns := by cases c <;> simp [Query.call, h.columns]
          orderBy := by cases c <;> simp [Query.call, h.orderBy]
          paramSeq := hconditions ▸ h.paramSeq
          conds_valid := h.conds_valid
          conds_read := by rw [Query.clauses, hconditions]; exact h.conds_read
          args_valid := h.args_valid
          args_read := by rw [Query.values, hconditions]; exact h.args_read }

theorem Builder.Represents.clone (h : b.Represents m q) (grow : Nat → Nat → Nat) :
    (b.clone grow m).1.Represents (b.clone grow m).2 q where
  table := h.table
  columns := h.columns
  orderBy := h.orderBy
  paramSeq := h.paramSeq
  conds_valid := Slice.valid_nil.append grow _
  conds_read := (Slice.valid_nil.read_append grow _).trans (by simpa using h.conds_read)
  args_valid := Slice.valid_nil.append grow _
  args_read := (Slice.valid_nil.read_append grow _).trans (by simpa using h.args_read)

/-! ## The other builders -/

/-- The store changed, and the builder does not see it. -/
structure Builder.Unseen (b : Builder) (m m' : Store V) : Prop where
  conds_valid : b.conds.Valid m'.clauses
  conds_read : b.conds.read m'.clauses = b.conds.read m.clauses
  args_valid : b.args.Valid m'.values
  args_read : b.args.read m'.values = b.args.read m.values

theorem Builder.Represents.unseen {m' : Store V} (h : b.Represents m q) (hm : b.Unseen m m') : b.Represents m' q where
  __ := h
  conds_valid := hm.conds_valid
  conds_read := hm.conds_read.trans h.conds_read
  args_valid := hm.args_valid
  args_read := hm.args_read.trans h.args_read

theorem Builder.Represents.frame_call (h' : b'.Represents m q) (hapart : b.Apart b') (grow : Nat → Nat → Nat)
    (c : Call V) : b'.Unseen m (b.call grow m c).2 ∧ (b.call grow m c).1.Apart b' := by
  cases hc : c.condition with
  | none =>
      rw [call_of_none hc]
      exact ⟨⟨h'.conds_valid, rfl, h'.args_valid, rfl⟩, hapart⟩
  | some cond =>
      rw [call_of_some hc]
      obtain ⟨hcv, hcr, hca⟩ := h'.conds_valid.frame_append hapart.1 grow [cond.render (b.paramSeq + 1)]
      obtain ⟨hav, har, haa⟩ := h'.args_valid.frame_append hapart.2 grow [cond.value]
      exact ⟨⟨hcv, hcr, hav, har⟩, hca, haa⟩

theorem Builder.Represents.frame_clone (h' : b'.Represents m q) (grow : Nat → Nat → Nat) (b : Builder) :
    b'.Unseen m (b.clone grow m).2 ∧ (b.clone grow m).1.Apart b' := by
  obtain ⟨hcv, hcr, hca⟩ := h'.conds_valid.frame_append Slice.apart_nil.symm grow (b.conds.read m.clauses)
  obtain ⟨hav, har, haa⟩ := h'.args_valid.frame_append Slice.apart_nil.symm grow (b.args.read m.values)
  exact ⟨⟨hcv, hcr, hav, har⟩, hca, haa⟩

/-! ## Programs -/

structure World.Refines (w : World V) (qs : List (Query V)) : Prop where
  length : w.builders.length = qs.length
  represents : ∀ (i : Nat) (b : Builder) (q : Query V),
    w.builders[i]? = some b → qs[i]? = some q → b.Represents w.store q
  apart : ∀ (i j : Nat) (b b' : Builder),
    i ≠ j → w.builders[i]? = some b → w.builders[j]? = some b' → b.Apart b'

theorem World.Refines.query {i : Nat} (h : w.Refines qs) (hb : w.builders[i]? = some b) :
    ∃ q, qs[i]? = some q ∧ b.Represents w.store q := by
  obtain ⟨hi, _⟩ := List.getElem?_eq_some_iff.mp hb
  obtain ⟨q, hq⟩ : ∃ q, qs[i]? = some q := ⟨_, List.getElem?_eq_getElem (h.length ▸ hi)⟩
  exact ⟨q, hq, h.represents i b q hb hq⟩

theorem World.Refines.query_none {i : Nat} (h : w.Refines qs) (hb : w.builders[i]? = none) : qs[i]? = none := by
  rw [List.getElem?_eq_none_iff] at hb ⊢
  exact h.length ▸ hb

/-- A new builder that the others do not see. -/
theorem World.Refines.push {m' : Store V} (h : w.Refines qs) (hb : b.Represents m' q)
    (hothers : ∀ (i : Nat) b' q', w.builders[i]? = some b' → b'.Represents w.store q' →
      b'.Unseen w.store m' ∧ b.Apart b') :
    World.Refines ⟨m', w.builders ++ [b]⟩ (qs ++ [q]) where
  length := by simp [h.length]
  represents := by
    intro i b' q' hb' hq'
    rcases getElem?_snoc_cases hb' with ⟨rfl, rfl⟩ | hb'
    · rw [h.length, List.getElem?_concat_length] at hq'
      cases hq'
      exact hb
    · obtain ⟨q₀, hq₀, hrep⟩ := h.query hb'
      rw [List.getElem?_append_left (List.getElem?_eq_some_iff.mp hq₀).1, hq₀, Option.some_inj] at hq'
      subst hq'
      exact hrep.unseen (hothers i b' q₀ hb' hrep).1
  apart := by
    intro i j b₁ b₂ hne h₁ h₂
    rcases getElem?_snoc_cases h₁ with ⟨hi, heq₁⟩ | hold₁ <;> rcases getElem?_snoc_cases h₂ with ⟨hj, heq₂⟩ | hold₂
    · exact absurd (hi.trans hj.symm) hne
    · obtain ⟨q₀, _, hrep⟩ := h.query hold₂
      exact heq₁ ▸ (hothers j b₂ q₀ hold₂ hrep).2
    · obtain ⟨q₀, _, hrep⟩ := h.query hold₁
      exact heq₂ ▸ (hothers i b₁ q₀ hold₁ hrep).2.symm
    · exact h.apart i j b₁ b₂ hne hold₁ hold₂

/-- A builder that changes while the others do not see it. -/
theorem World.Refines.update {m' : Store V} {i : Nat} {b₀ : Builder} (h : w.Refines qs)
    (hi : w.builders[i]? = some b₀) (hb : b.Represents m' q)
    (hothers : ∀ (j : Nat) b' q', i ≠ j → w.builders[j]? = some b' → b'.Represents w.store q' →
      b'.Unseen w.store m' ∧ b.Apart b') :
    World.Refines ⟨m', w.builders.set i b⟩ (qs.set i q) where
  length := by simp [h.length]
  represents := by
    intro j b' q' hb' hq'
    obtain ⟨q₀, hq₀, _⟩ := h.query hi
    rcases getElem?_set_cases hi hb' with ⟨rfl, rfl⟩ | ⟨hne, hb'⟩
    · rw [getElem?_set_slot hq₀] at hq'
      cases hq'
      exact hb
    · rw [List.getElem?_set_ne (Ne.symm hne)] at hq'
      have hrep := h.represents j b' q' hb' hq'
      exact hrep.unseen (hothers j b' q' (Ne.symm hne) hb' hrep).1
  apart := by
    intro j k b₁ b₂ hne h₁ h₂
    rcases getElem?_set_cases hi h₁ with ⟨hj, heq₁⟩ | ⟨hj, hold₁⟩ <;>
      rcases getElem?_set_cases hi h₂ with ⟨hk, heq₂⟩ | ⟨hk, hold₂⟩
    · exact absurd (hj.trans hk.symm) hne
    · obtain ⟨q₀, _, hrep⟩ := h.query hold₂
      exact heq₁ ▸ (hothers k b₂ q₀ (Ne.symm hk) hold₂ hrep).2
    · obtain ⟨q₀, _, hrep⟩ := h.query hold₁
      exact heq₂ ▸ (hothers j b₁ q₀ (Ne.symm hj) hold₁ hrep).2.symm
    · exact h.apart j k b₁ b₂ hne hold₁ hold₂

theorem represents_new (m : Store V) (table : String) :
    (Sqlbuilder.new table).Represents m ⟨table, "*", "", []⟩ where
  table := rfl
  columns := rfl
  orderBy := rfl
  paramSeq := rfl
  conds_valid := Slice.valid_nil
  conds_read := Slice.read_nil
  args_valid := Slice.valid_nil
  args_read := Slice.read_nil

theorem World.Refines.step (h : w.Refines qs) (grow : Nat → Nat → Nat) (op : Op V) :
    (w.step grow op).Refines (stepQueries qs op) := by
  cases op with
  | new table =>
      refine h.push (represents_new w.store table) ?_
      intro i b' q' _ hrep
      exact ⟨⟨hrep.conds_valid, rfl, hrep.args_valid, rfl⟩, Slice.apart_nil.symm, Slice.apart_nil.symm⟩
  | call i c =>
      cases hb : w.builders[i]? with
      | none => simpa [World.step, stepQueries, hb, h.query_none hb] using h
      | some b =>
          obtain ⟨q, hq, hrep⟩ := h.query hb
          simp only [World.step, stepQueries, hb, hq]
          refine h.update hb (hrep.call grow c) ?_
          intro j b' q' hne hb' hrep'
          exact hrep'.frame_call (h.apart i j b b' hne hb hb') grow c
  | clone i =>
      cases hb : w.builders[i]? with
      | none => simpa [World.step, stepQueries, hb, h.query_none hb] using h
      | some b =>
          obtain ⟨q, hq, hrep⟩ := h.query hb
          simp only [World.step, stepQueries, hb, hq]
          exact h.push (hrep.clone grow) fun _ _ _ _ hrep' => hrep'.frame_clone grow b

theorem World.Refines.run (grow : Nat → Nat → Nat) (ops : List (Op V)) :
    (World.init.run grow ops).Refines (queries ops) := by
  have hrun : ∀ {w : World V} {qs}, w.Refines qs → (w.run grow ops).Refines (ops.foldl stepQueries qs) := by
    induction ops with
    | nil => exact fun h => h
    | cons op ops ih => exact fun h => ih (h.step grow op)
  exact hrun ⟨rfl, by simp [World.init], by simp [World.init]⟩

end Gopkg.Sqlbuilder
