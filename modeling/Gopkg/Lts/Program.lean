import Mathlib.Data.List.Forall2
import Gopkg.Lts.Run

/-!
# Programs that call out

A sequential handler is a tree: it returns, or it performs an operation and goes on with the answer. Every
operation is one atomic step of the system the handler runs in, so the interleavings of several handlers
are the interleavings of their operations.
-/

namespace Gopkg.Lts

inductive Program (Op : Type) (Ans : Op → Type) (α : Type) : Type
  | ret (a : α)
  | call (op : Op) (next : Ans op → Program Op Ans α)

namespace Program

variable {Op : Type} {Ans : Op → Type} {α β : Type}

def bind (p : Program Op Ans α) (f : α → Program Op Ans β) : Program Op Ans β :=
  match p with
  | .ret a => f a
  | .call op next => .call op fun a => (next a).bind f

@[simp] theorem ret_bind (a : α) (f : α → Program Op Ans β) : (Program.ret a).bind f = f a := rfl

instance : Monad (Program Op Ans) where
  pure := .ret
  bind := .bind

def perform (op : Op) : Program Op Ans (Ans op) := .call op .ret

/-- An operation is performed, and gets any answer. The event is the operation with its answer. -/
inductive Step : Program Op Ans α → List ((op : Op) × Ans op) → Program Op Ans α → Prop
  | P_Call {op : Op} {next : Ans op → Program Op Ans α} (a : Ans op) : Step (.call op next) [⟨op, a⟩] (next a)

theorem Step.of_call {p : Program Op Ans α} {op : Op} {next : Ans op → Program Op Ans α} (h : p = .call op next)
    (a : Ans op) : Step p [⟨op, a⟩] (next a) :=
  h ▸ .P_Call a

/-! ## The first operation of a run -/

theorem run_nil {p q : Program Op Ans α} (hr : Run Step p [] q) : p = q := by
  rcases hr.uncons with ⟨_, hpq⟩ | ⟨_, _, _, hstep, _, heq⟩
  · exact hpq
  · cases hstep
    cases heq

theorem run_cons {p q : Program Op Ans α} {op : Op} {a : Ans op} {t : List ((op : Op) × Ans op)}
    (hr : Run Step p (⟨op, a⟩ :: t) q) : ∃ next, p = .call op next ∧ Run Step (next a) t q := by
  rcases hr.uncons with ⟨heq, _⟩ | ⟨_, _, _, hstep, hrest, heq⟩
  · cases heq
  · cases hstep with
    | @P_Call _ next b =>
        cases heq
        exact ⟨next, rfl, hrest⟩

/-! ## Complete runs -/

variable {p : Program Op Ans α} {t : List ((op : Op) × Ans op)} {a b : α}

/-- A program that has returned does nothing more. -/
theorem run_ret (hp : p = .ret a) (hr : Run Step p t (.ret b)) : t = [] ∧ a = b := by
  subst hp
  rcases hr.uncons with ⟨rfl, h⟩ | ⟨_, _, _, hstep, _⟩
  · cases h
    exact ⟨rfl, rfl⟩
  · cases hstep

/-- A program that calls out gets an answer and goes on with it. -/
theorem run_call (op : Op) {next : Ans op → Program Op Ans α} (hp : p = .call op next) (hr : Run Step p t (.ret b)) :
    ∃ x t', t = ⟨op, x⟩ :: t' ∧ Run Step (next x) t' (.ret b) := by
  subst hp
  rcases hr.uncons with ⟨_, h⟩ | ⟨_, _, t', hstep, hrest, rfl⟩
  · cases h
  · cases hstep with
    | P_Call x => exact ⟨x, t', rfl, hrest⟩

/-! ## Operations that are never performed -/

/-- The program performs no operation of `bad`, whatever it is answered. -/
def Avoids (bad : Op → Prop) : Program Op Ans α → Prop
  | .ret _ => True
  | .call op next => ¬ bad op ∧ ∀ a, (next a).Avoids bad

theorem Avoids.bind {bad : Op → Prop} {f : α → Program Op Ans β} (h : p.Avoids bad) (hf : ∀ a, (f a).Avoids bad) :
    (p.bind f).Avoids bad := by
  induction p with
  | ret a => exact hf a
  | call op next ih => exact ⟨h.1, fun a => ih a (h.2 a)⟩

/-! ## Programs that go on alike -/

section Alike

variable {rel : ∀ op, Ans op → Ans op → Prop} {R : α → α → Prop} {R' : β → β → Prop} {p' q q' : Program Op Ans α}
  {t t' : List ((op : Op) × Ans op)}

/-- They perform the same operations as long as their answers are related by `rel`, and what they return is related by
`R`. -/
inductive Alike (rel : ∀ op, Ans op → Ans op → Prop) (R : α → α → Prop) : Program Op Ans α → Program Op Ans α → Prop
  | ret {a a' : α} : R a a' → Alike rel R (.ret a) (.ret a')
  | call {op : Op} {next next' : Ans op → Program Op Ans α} :
      (∀ a a', rel op a a' → Alike rel R (next a) (next' a')) → Alike rel R (.call op next) (.call op next')

theorem Alike.bind {f f' : α → Program Op Ans β} (h : Alike rel R p p')
    (hf : ∀ a a', R a a' → Alike rel R' (f a) (f' a')) : Alike rel R' (p.bind f) (p'.bind f') := by
  induction h with
  | ret hR => exact hf _ _ hR
  | call _ ih => exact .call ih

/-- The same operation, with related answers. -/
inductive AlikeEvent (rel : ∀ op, Ans op → Ans op → Prop) : ((op : Op) × Ans op) → ((op : Op) × Ans op) → Prop
  | mk {op : Op} {a a' : Ans op} : rel op a a' → AlikeEvent rel ⟨op, a⟩ ⟨op, a'⟩

/-- What one of them has done the other can do. -/
theorem Alike.run (h : Alike rel R p p') (hr : Run Step p t q) (ht : List.Forall₂ (AlikeEvent rel) t t') :
    ∃ q', Run Step p' t' q' ∧ Alike rel R q q' := by
  induction ht generalizing p p' with
  | nil =>
      obtain rfl := run_nil hr
      exact ⟨p', .refl, h⟩
  | cons hev _ ih =>
      cases hev with
      | mk hrel =>
          obtain ⟨next, rfl, hrest⟩ := run_cons hr
          cases h with
          | call hnext =>
              obtain ⟨q', hr', hq⟩ := ih (hnext _ _ hrel) hrest
              exact ⟨q', .cons (.P_Call _) hr', hq⟩

/-- After the same operations they perform the same one. -/
theorem Alike.next_op {op op' : Op} {a : Ans op} {a' : Ans op'} (h : Alike rel R p p')
    (hr : Run Step p (t ++ [⟨op, a⟩]) q) (hr' : Run Step p' (t' ++ [⟨op', a'⟩]) q')
    (ht : List.Forall₂ (AlikeEvent rel) t t') : op = op' := by
  induction ht generalizing p p' with
  | nil =>
      obtain ⟨next, rfl, _⟩ := run_cons hr
      obtain ⟨next', rfl, _⟩ := run_cons hr'
      cases h
      rfl
  | cons hev _ ih =>
      cases hev with
      | mk hrel =>
          obtain ⟨next, rfl, hrest⟩ := run_cons hr
          obtain ⟨next', rfl, hrest'⟩ := run_cons hr'
          cases h with
          | call hnext => exact ih (hnext _ _ hrel) hrest hrest'

end Alike

end Program

end Gopkg.Lts
