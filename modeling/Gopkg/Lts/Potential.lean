import Mathlib.Algebra.Order.Monoid.Defs
import Gopkg.Lts.Run

/-!
# Quantities along a run

A quantity that no step lowers is not lowered by a run. And when each step pays for what it shows from a
potential, a run shows no more than the potential it has used up.
-/

namespace Gopkg.Lts

variable {S E M : Type*} {step : S → List E → S → Prop} {s s₁ : S} {t : List E}

theorem Run.monotone [Preorder M] {f : S → M} (h : Run step s t s₁)
    (hstep : ∀ s evs s', step s evs s' → f s ≤ f s') : f s ≤ f s₁ :=
  h.stateInvariant (I := fun s' => f s ≤ f s') le_rfl fun _ _ _ hle hs => hle.trans (hstep _ _ _ hs)

/-- `I` is an invariant that the steps may rely on, and the cost `c` adds up along a trace. -/
theorem Run.potential [AddCommMonoid M] [PartialOrder M] [IsOrderedAddMonoid M] {c : List E → M} {φ : S → M}
    {I : S → Prop} (h : Run step s t s₁) (hnil : c [] = 0)
    (happ : ∀ t t', c (t ++ t') = c t + c t') (h₀ : I s)
    (hI : ∀ s evs s', I s → step s evs s' → I s')
    (hstep : ∀ s evs s', I s → step s evs s' → c evs + φ s' ≤ φ s) : c t + φ s₁ ≤ φ s := by
  refine (h.invariant (I := fun t s' => I s' ∧ c t + φ s' ≤ φ s) ⟨h₀, by rw [hnil, zero_add]⟩ ?_).2
  rintro t s₁ evs s₂ ⟨hi, hle⟩ hs
  refine ⟨hI _ _ _ hi hs, ?_⟩
  calc c (t ++ evs) + φ s₂ = c t + (c evs + φ s₂) := by rw [happ, add_assoc]
    _ ≤ c t + φ s₁ := add_le_add_right (hstep _ _ _ hi hs) _
    _ ≤ φ s := hle

end Gopkg.Lts
