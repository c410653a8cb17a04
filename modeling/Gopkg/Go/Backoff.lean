import Mathlib.Algebra.Order.Field.Rat
import Mathlib.Algebra.Order.Ring.Int

/-!
# Pauses that grow

What the loops with a backoff share: the errors of a context that cuts a pause short, durations as multiples of a
duration, and growth up to a bound.
-/

namespace Gopkg.Go

/-- `context.Canceled` and `context.DeadlineExceeded`. -/
inductive CtxErr where
  | canceled
  | deadlineExceeded
  deriving DecidableEq, Repr

/-- `time.Duration(x)`, which drops the fraction. -/
def toDuration (x : ℚ) : Int := x.num.tdiv x.den

theorem toDuration_intCast (d : ℤ) : toDuration (d : ℚ) = d := by
  simp [toDuration]

/-- What is cut off by the bound before a step of growth is cut off after it. -/
theorem min_mul_eq {x y b m : ℤ} (hb : 0 < b) (hm : 1 ≤ m) (h : min x b = min y b) : min (x * m) b = min (y * m) b := by
  rcases lt_or_ge x b with hx | hx
  · have hxy : x = y := by omega
    rw [hxy]
  · have hy : b ≤ y := by omega
    have hgrow : ∀ z, b ≤ z → b ≤ z * m := fun z hz => hz.trans (le_mul_of_one_le_right (by omega) hm)
    rw [min_eq_right (hgrow x hx), min_eq_right (hgrow y hy)]

end Gopkg.Go
