import Mathlib.Logic.Relation

/-!
# Runs of a transition system

A system is a relation `step s evs s'`: from the state `s` it can move to `s'`, showing the events `evs`.
The interleavings of several goroutines are the runs of one such relation, with one step for each
atomic action of each goroutine.
-/

namespace Gopkg.Lts

variable {S E : Type*}

/-- `Run step s t s'`: some sequence of steps leads from `s` to `s'` and shows the events `t`. -/
inductive Run (step : S → List E → S → Prop) (s : S) : List E → S → Prop
  | refl : Run step s [] s
  | snoc {t evs : List E} {s₁ s₂ : S} : Run step s t s₁ → step s₁ evs s₂ → Run step s (t ++ evs) s₂

/-- The steps that meet the condition `P`. A run of `Restrict step P` is a run of `step` whose steps
all meet `P`. -/
def Restrict (step P : S → List E → S → Prop) : S → List E → S → Prop :=
  fun s evs s' => step s evs s' ∧ P s evs s'

variable {step step' : S → List E → S → Prop} {s s₁ s₂ : S} {t t' evs : List E}

theorem Run.single (h : step s evs s₁) : Run step s evs s₁ := by
  simpa using Run.snoc .refl h

theorem Run.trans (h : Run step s t s₁) (h' : Run step s₁ t' s₂) : Run step s (t ++ t') s₂ := by
  induction h' with
  | refl => simpa using h
  | snoc _ hstep ih => rw [← List.append_assoc]; exact .snoc ih hstep

theorem Run.cons (h : step s evs s₁) (h' : Run step s₁ t s₂) : Run step s (evs ++ t) s₂ :=
  (Run.single h).trans h'

/-- The first step of a run. -/
theorem Run.uncons (h : Run step s t s₁) :
    (t = [] ∧ s = s₁) ∨ ∃ evs s₂ t', step s evs s₂ ∧ Run step s₂ t' s₁ ∧ t = evs ++ t' := by
  induction h with
  | refl => exact .inl ⟨rfl, rfl⟩
  | snoc _ hstep ih =>
      rcases ih with ⟨rfl, rfl⟩ | ⟨evs, s₂, t', hfirst, hrest, rfl⟩
      · exact .inr ⟨_, _, [], hstep, .refl, by simp⟩
      · exact .inr ⟨evs, s₂, _, hfirst, hrest.snoc hstep, by simp⟩

theorem Run.mono (hsub : ∀ s evs s', step s evs s' → step' s evs s') (h : Run step s t s₁) :
    Run step' s t s₁ := by
  induction h with
  | refl => exact .refl
  | snoc _ hstep ih => exact .snoc ih (hsub _ _ _ hstep)

theorem Run.of_restrict {P : S → List E → S → Prop} (h : Run (Restrict step P) s t s₁) :
    Run step s t s₁ :=
  h.mono fun _ _ _ hs => hs.1

/-- A run is made of steps that show allowed events when all it shows is allowed. -/
theorem Run.restrict_events {p : E → Prop} (h : Run step s t s₁) (hp : ∀ ev ∈ t, p ev) :
    Run (Restrict step fun _ evs _ => ∀ ev ∈ evs, p ev) s t s₁ := by
  induction h with
  | refl => exact .refl
  | snoc _ hs ih =>
      rw [List.forall_mem_append] at hp
      exact .snoc (ih hp.1) ⟨hs, hp.2⟩

/-- The invariant rule. `I t s` speaks of the events shown so far and of the state reached. -/
theorem Run.invariant {I : List E → S → Prop} (h : Run step s t s₁) (h₀ : I [] s)
    (hstep : ∀ t s evs s', I t s → step s evs s' → I (t ++ evs) s') : I t s₁ := by
  induction h with
  | refl => exact h₀
  | snoc _ hs ih => exact hstep _ _ _ _ ih hs

theorem Run.stateInvariant {I : S → Prop} (h : Run step s t s₁) (h₀ : I s)
    (hstep : ∀ s evs s', I s → step s evs s' → I s') : I s₁ :=
  h.invariant (I := fun _ s => I s) h₀ fun _ _ _ _ hi hs => hstep _ _ _ hi hs

/-- An invariant of the whole history carries over to a continuation. -/
theorem Run.carry {I : List E → S → Prop} {t₀ : List E} (h : Run step s t s₁) (h₀ : I t₀ s)
    (hstep : ∀ t s evs s', I t s → step s evs s' → I (t ++ evs) s') : I (t₀ ++ t) s₁ := by
  induction h with
  | refl => simpa using h₀
  | snoc _ hs ih => rw [← List.append_assoc]; exact hstep _ _ _ _ ih hs

/-- Every event of a history is allowed after the events before it. -/
def Each (law : List E → E → Prop) (t : List E) : Prop :=
  ∀ t₁ ev t₂, t = t₁ ++ ev :: t₂ → law t₁ ev

variable {law : List E → E → Prop}

theorem Each.nil : Each law ([] : List E) :=
  fun _ _ _ h => absurd h.symm (List.append_ne_nil_of_right_ne_nil _ (List.cons_ne_nil _ _))

theorem Each.snoc {ev : E} (h : Each law t) (hev : law t ev) : Each law (t ++ [ev]) := by
  intro t₁ ev' t₂ heq
  rcases List.eq_nil_or_concat t₂ with rfl | ⟨t₂, x, rfl⟩
  · obtain ⟨rfl, ⟨⟩⟩ := List.append_inj' heq rfl
    exact hev
  · have heq' : t ++ [ev] = (t₁ ++ ev' :: t₂) ++ [x] := by simpa using heq
    exact h t₁ ev' t₂ (List.append_inj' heq' rfl).1

end Gopkg.Lts
