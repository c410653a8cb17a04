import Gopkg.Lts.Program

/-!
# Programs that run alone

A program over a state that nothing else changes while it runs. `act s op a s'` says that in the state `s` the operation
`op` can be answered by `a`, and that it leaves the state `s'`.
-/

namespace Gopkg.Lts

variable {σ Op α β : Type} {Ans : Op → Type} {act : σ → (op : Op) → Ans op → σ → Prop} {p : Program Op Ans α}
  {f : α → Program Op Ans β} {s s' : σ} {a b : α} {c : β} {t : List ((op : Op) × Ans op)}

/-- From the state `s` the program returns `a` in the state `s'`, after the operations `t`. -/
inductive Ends (act : σ → (op : Op) → Ans op → σ → Prop) :
    σ → Program Op Ans α → List ((op : Op) × Ans op) → α → σ → Prop
  | ret {s : σ} {a : α} : Ends act s (.ret a) [] a s
  | call {s s₁ s₂ : σ} {op : Op} {next : Ans op → Program Op Ans α} {x : Ans op} {t : List ((op : Op) × Ans op)}
      {a : α} : act s op x s₁ → Ends act s₁ (next x) t a s₂ → Ends act s (.call op next) (⟨op, x⟩ :: t) a s₂

theorem ends_ret (hp : p = .ret a) (he : Ends act s p t b s') : t = [] ∧ b = a ∧ s' = s := by
  subst hp
  cases he
  exact ⟨rfl, rfl, rfl⟩

theorem ends_call (op : Op) {next : Ans op → Program Op Ans α} (hp : p = .call op next) (he : Ends act s p t b s') :
    ∃ x s₁ t', t = ⟨op, x⟩ :: t' ∧ act s op x s₁ ∧ Ends act s₁ (next x) t' b s' := by
  subst hp
  cases he with
  | call hact hrest => exact ⟨_, _, _, rfl, hact, hrest⟩

theorem ends_bind (he : Ends act s (p.bind f) t c s') :
    ∃ t₁ t₂ a s₁, t = t₁ ++ t₂ ∧ Ends act s p t₁ a s₁ ∧ Ends act s₁ (f a) t₂ c s' := by
  induction p generalizing s t with
  | ret a => exact ⟨[], t, a, s, rfl, .ret, he⟩
  | call op next ih =>
      obtain ⟨x, s₁, t', rfl, hact, hrest⟩ := ends_call op rfl he
      obtain ⟨t₁, t₂, a, s₂, rfl, hp, hf⟩ := ih x hrest
      exact ⟨⟨op, x⟩ :: t₁, t₂, a, s₂, rfl, .call hact hp, hf⟩

/-- What no operation of a program changes is as it was. -/
theorem Ends.kept {γ : Type} {bad : Op → Prop} {g : σ → γ} (he : Ends act s p t a s') (hp : p.Avoids bad)
    (hact : ∀ {s op x s'}, ¬ bad op → act s op x s' → g s' = g s) : g s' = g s := by
  induction he with
  | ret => rfl
  | call h _ ih => exact (ih (hp.2 _)).trans (hact hp.1 h)

/-- Where every operation is answered, every program returns. -/
theorem exists_ends (hact : ∀ s op, ∃ x s', act s op x s') (p : Program Op Ans α) (s : σ) :
    ∃ t a s', Ends act s p t a s' := by
  induction p generalizing s with
  | ret a => exact ⟨[], a, s, .ret⟩
  | call op next ih =>
      obtain ⟨x, s₁, hx⟩ := hact s op
      obtain ⟨t, a, s₂, he⟩ := ih x s₁
      exact ⟨_, a, s₂, .call hx he⟩

/-- An operation in front of those that are still to be found. -/
theorem exists_ends_call {s₁ : σ} {op : Op} {next : Ans op → Program Op Ans α} {x : Ans op} (hact : act s op x s₁)
    (he : ∃ t, Ends act s₁ (next x) t a s') : ∃ t, Ends act s (.call op next) t a s' := by
  obtain ⟨t, he⟩ := he
  exact ⟨_, .call hact he⟩

/-- Wherever the program returns from `s`, it does so with `Q`. -/
def Wp (act : σ → (op : Op) → Ans op → σ → Prop) (Q : α → σ → Prop) : Program Op Ans α → σ → Prop
  | .ret a, s => Q a s
  | .call op next, s => ∀ x s', act s op x s' → Wp act Q (next x) s'

variable {Q Q' : α → σ → Prop} {R : β → σ → Prop}

theorem Wp.ends (h : Wp act Q p s) (he : Ends act s p t a s') : Q a s' := by
  induction he with
  | ret => exact h
  | call hact _ ih => exact ih (h _ _ hact)

theorem Wp.bind (h : Wp act Q p s) (hf : ∀ a s, Q a s → Wp act R (f a) s) : Wp act R (p.bind f) s := by
  induction p generalizing s with
  | ret a => exact hf a s h
  | call op next ih => exact fun x s' hact => ih x (h x s' hact)

theorem Wp.mono (h : Wp act Q p s) (hQ : ∀ a s, Q a s → Q' a s) : Wp act Q' p s := by
  induction p generalizing s with
  | ret a => exact hQ a s h
  | call op next ih => exact fun x s' hact => ih x (h x s' hact)

end Gopkg.Lts
