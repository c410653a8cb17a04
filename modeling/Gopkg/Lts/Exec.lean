import Gopkg.Lts.Run

/-!
# Executing a schedule

A schedule is a list of actions, each of which says which goroutine moves and what its environment
answers. `exec` runs one, and fails when an action is not possible.
-/

namespace Gopkg.Lts

variable {S E A : Type*}

def exec (act : S → A → Option (List E × S)) (s : S) : List A → Option (List E × S)
  | [] => some ([], s)
  | a :: as => do
      let (evs, s₁) ← act s a
      let (t, s₂) ← exec act s₁ as
      return (evs ++ t, s₂)

variable {act : S → A → Option (List E × S)} {step : S → List E → S → Prop}

/-- A schedule that can be executed is a run, when each action is a step. -/
theorem exec_run (hact : ∀ s a evs s', act s a = some (evs, s') → step s evs s') :
    ∀ (as : List A) {s s' : S} {t : List E}, exec act s as = some (t, s') → Run step s t s'
  | [], s, s', t, h => by
      simp only [exec, Option.some.injEq, Prod.mk.injEq] at h
      obtain ⟨rfl, rfl⟩ := h
      exact .refl
  | a :: as, s, s', t, h => by
      simp only [exec, Option.bind_eq_bind, Option.bind_eq_some_iff, Option.pure_def, Option.some.injEq,
        Prod.mk.injEq] at h
      obtain ⟨⟨evs, s₁⟩, ha, ⟨t₁, s₂⟩, hr, rfl, rfl⟩ := h
      exact (exec_run hact as hr).cons (hact _ _ _ _ ha)

/-- The events and the state after a schedule that can be executed. -/
def after (act : S → A → Option (List E × S)) (s : S) (as : List A) : List E × S :=
  (exec act s as).getD ([], s)

theorem run_after (hact : ∀ s a evs s', act s a = some (evs, s') → step s evs s') {s : S} {as : List A}
    (h : (exec act s as).isSome) : Run step s (after act s as).1 (after act s as).2 := by
  obtain ⟨⟨t, s'⟩, he⟩ := Option.isSome_iff_exists.mp h
  simp only [after, he, Option.getD_some]
  exact exec_run hact as he

def guarded (act : S → A → Option (List E × S)) (P : S → List E → S → Prop)
    [∀ s evs s', Decidable (P s evs s')] (s : S) (a : A) : Option (List E × S) :=
  (act s a).filter fun r => P s r.1 r.2

theorem guarded_sound {P : S → List E → S → Prop} [∀ s evs s', Decidable (P s evs s')]
    (hact : ∀ s a evs s', act s a = some (evs, s') → step s evs s') (s : S) (a : A) (evs : List E) (s' : S)
    (h : guarded act P s a = some (evs, s')) : Restrict step P s evs s' := by
  obtain ⟨ha, hp⟩ := Option.filter_eq_some_iff.mp h
  exact ⟨hact _ _ _ _ ha, of_decide_eq_true hp⟩

end Gopkg.Lts
