import Gopkg.Lts.Run

/-!
# Simulation

A system is seen as another one, with the states `f s` and the events `g t`: what is a step of the one is no, one or
several steps of the other.
-/

namespace Gopkg.Lts

variable {S S' E E' : Type*} {step : S → List E → S → Prop} {step' : S' → List E' → S' → Prop} {f : S → S'}
  {g : List E → List E'} {s s₁ : S} {t : List E}

theorem Run.simulate (h : Run step s t s₁) (hnil : g [] = []) (happ : ∀ t t', g (t ++ t') = g t ++ g t')
    (hstep : ∀ s evs s', step s evs s' → Run step' (f s) (g evs) (f s')) : Run step' (f s) (g t) (f s₁) := by
  induction h with
  | refl =>
      rw [hnil]
      exact .refl
  | snoc _ hs ih =>
      rw [happ]
      exact ih.trans (hstep _ _ _ hs)

end Gopkg.Lts
