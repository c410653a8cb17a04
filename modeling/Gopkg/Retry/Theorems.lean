import Mathlib.Order.Bounds.Basic
import Gopkg.Lts.Rounds
import Gopkg.Retry.Retry

/-!
# Theorems about retries

How often the function is called, how long the pauses are, and what is returned.
-/

namespace Gopkg.Retry

open Go Lts

/-! ## Permanent errors -/

/-- The errors that an error is or wraps. -/
inductive Wraps : Err → Err → Prop
  | refl {err : Err} : Wraps err err
  | permanentError {err target : Err} : Wraps err target → Wraps (.permanentError err) target
  | wrapped {text : String} {err target : Err} : Wraps err target → Wraps (.wrapped text err) target
  | left {err err' target : Err} : Wraps err target → Wraps (.joined err err') target
  | right {err err' target : Err} : Wraps err' target → Wraps (.joined err err') target

/-- An error is permanent when it wraps `ErrPermanent`, or what `Permanent` makes, at any depth. -/
theorem isPermanent_iff {err : Err} :
    err.isPermanent ↔ Wraps err .errPermanent ∨ ∃ inner, Wraps err (.permanentError inner) := by
  constructor
  · intro h
    induction err with
    | new text => cases h
    | ctx err => cases h
    | errPermanent => exact .inl .refl
    | permanentError err _ => exact .inr ⟨err, .refl⟩
    | wrapped text err ih => exact (ih h).imp .wrapped fun ⟨inner, hinner⟩ => ⟨inner, .wrapped hinner⟩
    | joined err err' ih ih' =>
        rcases (Bool.or_eq_true _ _).mp h with h | h
        · exact (ih h).imp .left fun ⟨inner, hinner⟩ => ⟨inner, .left hinner⟩
        · exact (ih' h).imp .right fun ⟨inner, hinner⟩ => ⟨inner, .right hinner⟩
  · have hchain : ∀ {target}, Wraps err target → target.isPermanent → err.isPermanent := by
      intro target hwraps htarget
      induction hwraps with
      | refl => exact htarget
      | permanentError _ _ => rfl
      | wrapped _ ih => exact ih htarget
      | left _ ih => simp [Err.isPermanent, ih htarget]
      | right _ ih => simp [Err.isPermanent, ih htarget]
    rintro (h | ⟨inner, h⟩)
    · exact hchain h rfl
    · exact hchain h rfl

/-! ## The world of a run -/

/-- What happens to the attempts: what `ctx.Err` says before the `k`-th call, what the call returns, and what the pause
after it ends with. -/
structure World where
  top : Nat → Option CtxErr
  fn : Nat → Option Err
  pause : Nat → Option CtxErr

namespace World

variable (w : World)

/-- The state is the number of calls so far. -/
def act (k : Nat) : (op : Op) → Ans op → Nat → Prop
  | .ctxErr, a, k' => a = w.top (k + 1) ∧ k' = k
  | .fn, a, k' => a = w.fn (k + 1) ∧ k' = k + 1
  | .pause _, a, k' => a = w.pause k ∧ k' = k
  | .rand, _, k' => k' = k

/-- The `k`-th call succeeds, or fails for good. -/
def Stops (k : Nat) : Prop := ∀ err ∈ w.fn k, err.isPermanent

/-- The end of the context is seen after `k` calls. -/
def Observed (k : Nat) : Prop := w.top (k + 1) ≠ none ∨ 1 ≤ k ∧ w.pause k ≠ none

theorem exists_act (k : Nat) (op : Op) : ∃ a k', w.act k op a k' := by
  cases op with
  | rand => exact ⟨(0 : ℚ), k, rfl⟩
  | _ => exact ⟨_, _, rfl, rfl⟩

end World

/-! ## Pauses -/

/-- The pause after `k + 1` calls. -/
def pauseAfter (policy : Policy) (m : ℤ) (k : Nat) : ℤ := min (policy.initialDelay * max 1 m ^ k) policy.maxDelay

theorem applyJitter_zero (d : ℤ) {frac : ℚ} (h : frac ≤ 0) : applyJitter d frac = .ret d := by
  rw [applyJitter, if_pos h]
  rfl

/-- A loop of a corrected policy: its attempts, and the pauses that are left. -/
structure Prepared (policy : Policy) (m : ℤ) (loop : Policy) (N : Nat) : Prop where
  attempts : loop.maxAttempts = N
  maxDelay : loop.maxDelay = policy.maxDelay
  multiplier : loop.multiplier = (max 1 m : ℤ)
  jitterFraction : loop.jitterFraction ≤ 0

variable {policy loop : Policy} {m : ℤ} {N k : Nat}

theorem cap_eq (hmax : 0 < policy.maxDelay) (hloop : Prepared policy m loop N) (d : ℤ) :
    loop.cap d = min d policy.maxDelay := by
  rw [Policy.cap, hloop.maxDelay]
  split <;> omega

/-- The delay that the loop carries gives the pause after the next call. -/
def Carries (policy : Policy) (m : ℤ) (k : Nat) (delay : ℤ) : Prop :=
  min delay policy.maxDelay = pauseAfter policy m k

theorem Carries.start : Carries policy m 0 policy.initialDelay := by
  rw [Carries, pauseAfter, pow_zero, mul_one]

theorem Carries.next (hmax : 0 < policy.maxDelay) (hloop : Prepared policy m loop N) {delay : ℤ}
    (h : Carries policy m k delay) :
    Carries policy m (k + 1) (loop.cap (toDuration (delay * loop.multiplier))) := by
  have hprod : toDuration (delay * loop.multiplier) = delay * max 1 m := by
    rw [hloop.multiplier, ← Int.cast_mul, toDuration_intCast]
  rw [Carries, hprod, cap_eq hmax hloop, min_assoc, min_self,
    min_mul_eq hmax (le_max_left 1 m) (h.trans rfl), pauseAfter, pow_succ, mul_assoc]

/-! ## Rounds -/

/-- An event of a run of `Do`. -/
abbrev Event := (op : Op) × Ans op

variable (policy m) (w : World)

/-- A call that fails, and a pause that is over. -/
def round (k : Nat) : List Event :=
  [⟨.ctxErr, none⟩, ⟨.fn, w.fn (k + 1)⟩, ⟨.pause (pauseAfter policy m k), none⟩]

structure World.Passes (k : Nat) : Prop where
  top : w.top (k + 1) = none
  fails : ¬ w.Stops (k + 1)
  pause : w.pause (k + 1) = none

/-- How `Do` ends after `k` rounds: the operations that are left, the result, and the number of calls. -/
inductive Finish (N k : Nat) : List Event → Option Err → Nat → Prop
  | cancelled {err : CtxErr} : w.top (k + 1) = some err → Finish N k [⟨.ctxErr, some err⟩] (some (.ctx err)) k
  | succeeded : w.top (k + 1) = none → w.fn (k + 1) = none →
      Finish N k [⟨.ctxErr, none⟩, ⟨.fn, none⟩] none (k + 1)
  | permanent {err : Err} : w.top (k + 1) = none → w.fn (k + 1) = some err → err.isPermanent →
      Finish N k [⟨.ctxErr, none⟩, ⟨.fn, some err⟩] (some err) (k + 1)
  | gaveUp {err : Err} : w.top (k + 1) = none → w.fn (k + 1) = some err → ¬ err.isPermanent → k + 1 = N →
      Finish N k [⟨.ctxErr, none⟩, ⟨.fn, some err⟩] (some (gaveUp N err)) (k + 1)
  | interrupted {err : Err} {err' : CtxErr} : w.top (k + 1) = none → w.fn (k + 1) = some err → ¬ err.isPermanent →
      k + 1 < N → w.pause (k + 1) = some err' → Finish N k
        [⟨.ctxErr, none⟩, ⟨.fn, some err⟩, ⟨.pause (pauseAfter policy m k), some err'⟩] (some (.ctx err')) (k + 1)

variable {policy m w} {c n left : Nat} {delay : ℤ} {t last : List Event} {r : Option Err}

/-- One pass of the loop. -/
theorem attempt_ends (hmax : 0 < policy.maxDelay) (hloop : Prepared policy m loop N)
    (he : Ends w.act k (attempts loop left delay) t r n) (hleft : k + left + 1 = N)
    (hcarries : Carries policy m k delay) :
    Finish policy m w N k t r n ∨ ∃ left' t', left = left' + 1 ∧ w.Passes k ∧ t = round policy m w k ++ t' ∧
      Ends w.act (k + 1) (attempts loop left' (loop.cap (toDuration (delay * loop.multiplier)))) t' r n := by
  rw [attempts] at he
  obtain ⟨seen, k₁, t₁, rfl, ⟨hseen, rfl⟩, he₁⟩ := ends_call Op.ctxErr rfl he
  cases seen with
  | some err =>
      obtain ⟨rfl, rfl, rfl⟩ := ends_ret rfl he₁
      exact .inl (.cancelled hseen.symm)
  | none =>
      obtain ⟨result, k₂, t₂, rfl, ⟨hresult, rfl⟩, he₂⟩ := ends_call Op.fn rfl he₁
      cases result with
      | none =>
          obtain ⟨rfl, rfl, rfl⟩ := ends_ret rfl he₂
          exact .inl (.succeeded hseen.symm hresult.symm)
      | some err =>
          rw [Program.ret_bind] at he₂
          dsimp only at he₂
          by_cases hperm : err.isPermanent
          · rw [if_pos hperm] at he₂
            obtain ⟨rfl, rfl, rfl⟩ := ends_ret rfl he₂
            exact .inl (.permanent hseen.symm hresult.symm hperm)
          · rw [if_neg hperm] at he₂
            cases left with
            | zero =>
                obtain ⟨rfl, rfl, rfl⟩ := ends_ret rfl he₂
                rw [hloop.attempts]
                exact .inl (.gaveUp hseen.symm hresult.symm hperm hleft)
            | succ left =>
                dsimp only at he₂
                rw [applyJitter_zero delay hloop.jitterFraction] at he₂
                obtain ⟨cut, k₃, t₃, rfl, ⟨hcut, rfl⟩, he₃⟩ := ends_call (Op.pause (loop.cap delay)) rfl he₂
                rw [cap_eq hmax hloop, hcarries]
                cases cut with
                | some err' =>
                    obtain ⟨rfl, rfl, rfl⟩ := ends_ret rfl he₃
                    exact .inl (.interrupted hseen.symm hresult.symm hperm (by omega) hcut.symm)
                | none =>
                    have hfails : ¬ w.Stops (k₁ + 1) := fun hstops => hperm (hstops err hresult.symm)
                    refine .inr ⟨left, t₃, rfl, ⟨hseen.symm, hfails, hcut.symm⟩, ?_, he₃⟩
                    rw [round, ← hresult]
                    rfl

/-- What `Do` does: its result is what is returned, with the number of calls. -/
abbrev DoRounds (policy : Policy) (m : ℤ) (w : World) (N : Nat) : Nat → Nat → List Event → Option Err × Nat → Prop :=
  Rounds (round policy m w) w.Passes fun k last rn => k < N ∧ Finish policy m w N k last rn.1 rn.2

theorem attempts_ends (hmax : 0 < policy.maxDelay) (hloop : Prepared policy m loop N) (hleft : k + left + 1 = N)
    (hcarries : Carries policy m k delay) (he : Ends w.act k (attempts loop left delay) t r n) :
    ∃ c, DoRounds policy m w N k c t (r, n) := by
  refine Rounds.of_pass (L := fun left k t rn => k + left + 1 = N ∧ ∃ delay, Carries policy m k delay ∧
    Ends w.act k (attempts loop left delay) t rn.1 rn.2) ?_ ⟨hleft, delay, hcarries, he⟩
  rintro left k t ⟨r, n⟩ ⟨hleft, delay, hcarries, he⟩
  rcases attempt_ends hmax hloop he hleft hcarries with hlast | ⟨left', t', rfl, hpasses, ht, hrest⟩
  · exact .inl ⟨by omega, hlast⟩
  · exact .inr ⟨left', t', rfl, hpasses, ht, by omega, _, hcarries.next hmax hloop, hrest⟩

/-! ## The number of calls -/

/-- The loop ends after `k` calls: there are no more attempts, the last call has stopped it, or the context has. -/
def Ended (w : World) (N k : Nat) : Prop := k = N ∨ 1 ≤ k ∧ w.Stops k ∨ w.Observed k

theorem Finish.ended (h : Finish policy m w N k last r n) : Ended w N n := by
  cases h with
  | cancelled htop => exact .inr (.inr (.inl (by simp [htop])))
  | succeeded _ hfn => exact .inr (.inl ⟨Nat.le_add_left 1 k, by simp [World.Stops, hfn]⟩)
  | permanent _ hfn hperm => exact .inr (.inl ⟨Nat.le_add_left 1 k, by simpa [World.Stops, hfn] using hperm⟩)
  | gaveUp _ _ _ hN => exact .inl hN
  | interrupted _ _ _ _ hpause => exact .inr (.inr (.inr ⟨Nat.le_add_left 1 k, by simp [hpause]⟩))

/-- The rounds before were seen through, and the last call was made with the context as it was. -/
theorem Finish.calls (h : Finish policy m w N k last r n) : n = k ∨ n = k + 1 ∧ w.top (k + 1) = none := by
  cases h with
  | cancelled _ => exact .inl rfl
  | succeeded htop _ => exact .inr ⟨rfl, htop⟩
  | permanent htop _ _ => exact .inr ⟨rfl, htop⟩
  | gaveUp htop _ _ _ => exact .inr ⟨rfl, htop⟩
  | interrupted htop _ _ _ _ => exact .inr ⟨rfl, htop⟩

theorem isLeast_of_rounds (h : DoRounds policy m w N 0 c t (r, n)) : IsLeast {k | Ended w N k} n := by
  obtain ⟨last, _, hlt, hlast⟩ := h.ends
  rw [Nat.zero_add] at hlt hlast
  refine ⟨hlast.ended, fun j hj => ?_⟩
  by_contra hjn
  have hcalls : n = c ∨ n = c + 1 ∧ w.top (c + 1) = none := hlast.calls
  have htop : w.top (j + 1) = none := by
    by_cases hjc : j < c
    · exact (h.passes j (Nat.zero_le j) (by omega)).top
    · obtain rfl : j = c := by omega
      exact (hcalls.resolve_left (by omega)).2
  have hbefore : 1 ≤ j → w.Passes (j - 1) := fun hpos => h.passes (j - 1) (Nat.zero_le _) (by omega)
  have hj1 : 1 ≤ j → j - 1 + 1 = j := Nat.sub_add_cancel
  rcases hj with rfl | ⟨hpos, hstops⟩ | hseen | ⟨hpos, hpause⟩
  · omega
  · exact (hbefore hpos).fails (by rwa [hj1 hpos])
  · exact hseen htop
  · exact hpause (by rw [← hj1 hpos, (hbefore hpos).pause])

/-! ## After the end of the context -/

theorem Finish.cancelled_last {err : CtxErr} {t₁ t₂ : List Event} (h : Finish policy m w N k last r n)
    (hsplit : last = t₁ ++ ⟨.ctxErr, some err⟩ :: t₂) : t₂ = [] := by
  have hmem : ⟨.ctxErr, some err⟩ ∈ last := by simp [hsplit]
  cases h with
  | cancelled _ =>
      cases t₁ with
      | nil => exact (List.cons.inj hsplit).2.symm
      | cons ev t₁ => simp at hsplit
  | _ => simp at hmem

theorem cancelled_last {err : CtxErr} {t₁ t₂ : List Event} (h : DoRounds policy m w N k c t (r, n))
    (hsplit : t = t₁ ++ ⟨.ctxErr, some err⟩ :: t₂) : t₂ = [] := by
  obtain ⟨last, rfl, _, hlast⟩ := h.ends
  obtain ⟨t₀, _, hlast'⟩ := append_of_not_mem (by simp [List.mem_flatMap, round]) hsplit
  exact hlast.cancelled_last hlast'

/-! ## `Do` -/

theorem prepared_clamped (hm : policy.multiplier = m) (hjitter : policy.jitterFraction ≤ 0) :
    Prepared policy m policy.clamped (max 1 policy.maxAttempts).toNat where
  attempts := by
    dsimp only [Policy.clamped]
    split <;> omega
  maxDelay := rfl
  multiplier := by
    dsimp only [Policy.clamped]
    rw [hm]
    split
    next hlt =>
      have hlt : m < 1 := by exact_mod_cast hlt
      rw [max_eq_left hlt.le, Int.cast_one]
    next hge =>
      have hge : 1 ≤ m := by
        rw [not_lt] at hge
        exact_mod_cast hge
      rw [max_eq_right hge]
  jitterFraction := by
    have hfrac : (if policy.jitterFraction < 0 then 0 else policy.jitterFraction) = 0 := by
      split
      next => rfl
      next hge => exact le_antisymm hjitter (not_lt.mp hge)
    dsimp only [Policy.clamped]
    rw [hfrac, if_neg (by decide)]

/-- Three attempts, after pauses of 100 and of 150. -/
def briefPolicy : Policy := ⟨3, 100, 150, 2, 0⟩

/-- The third call succeeds. -/
def thirdTime : World where
  top _ := none
  fn k := if k < 3 then some (.new "unavailable") else none
  pause _ := none

example : [0, 1].map (pauseAfter briefPolicy 2) = [100, 150] := by decide

end Gopkg.Retry
