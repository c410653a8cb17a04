import Gopkg.Errorsx.Errors

/-!
# Theorems about typed errors
-/

namespace Gopkg.Errorsx

variable {id : Identity} {kind : Kind} {msg : String} {err : Err} {l : List Pointer}

/-! ## Chains -/

mutual
/-- The `*Error`s in the chain of an error, from the outermost on. -/
def Err.chain : Err → List Pointer
  | .plain _ => []
  | .nilError => [none]
  | .leaf kind _ => [some kind]
  | .wrapping kind _ wrap => some kind :: wrap.chain
  | .errorf _ errs => chainAll errs

def chainAll : List Err → List Pointer
  | [] => []
  | err :: errs => err.chain ++ chainAll errs
end

def pointers (err : Option Err) : List Pointer := err.elim [] Err.chain

/-- The kinds of a chain. A nil `*Error` counts as no error. -/
def kinds (err : Option Err) : List Kind := (pointers err).reduceOption

mutual
theorem as_eq_head? : (err : Err) → err.as = err.chain.head?
  | .plain _ => rfl
  | .nilError => rfl
  | .leaf _ _ => rfl
  | .wrapping _ _ _ => rfl
  | .errorf _ errs => asFirst_eq_head? errs

theorem asFirst_eq_head? : (errs : List Err) → asFirst errs = (chainAll errs).head?
  | [] => rfl
  | err :: errs => by rw [asFirst, chainAll, List.head?_append, as_eq_head? err, asFirst_eq_head? errs]
end

/-- The walk of `errors.Is` over a chain. -/
def scan (kind : Kind) : List Pointer → Except Panic Bool
  | [] => .ok false
  | none :: _ => .error .nilDereference
  | some k :: rest => if k = kind then .ok true else scan kind rest

theorem scan_append (kind : Kind) (l l' : List Pointer) :
    scan kind (l ++ l') = orElse (scan kind l) (scan kind l') := by
  induction l with
  | nil => rfl
  | cons e l ih =>
      cases e with
      | none => rfl
      | some k =>
          by_cases hk : k = kind
          · simp [scan, hk, orElse, Except.bind]
          · simpa [scan, hk] using ih

theorem pointer_is_eq_scan (e : Pointer) (kind : Kind) (msg : String) : e.is (new kind msg) = scan kind [e] := by
  cases e with
  | none => rfl
  | some k =>
      change Except.ok (k == kind) = if k = kind then _ else _
      by_cases hk : k = kind
      · rw [if_pos hk, hk, beq_self_eq_true]
      · rw [if_neg hk, beq_false_of_ne hk]
        rfl

/-- An error that is the target itself is found. -/
theorem scan_of_same {x : Except Panic Bool} (hx : x = scan kind err.chain) :
    orElse (.ok (id.same err (new kind msg))) x = scan kind err.chain := by
  cases hsame : id.same err (new kind msg) with
  | false => exact hx
  | true =>
      rw [id.eq_of_same _ _ hsame]
      exact (if_pos rfl).symm

mutual
theorem is_eq_scan (id : Identity) (kind : Kind) (msg : String) :
    (err : Err) → Err.is id (new kind msg) err = scan kind err.chain
  | .plain text => by
      have hother : id.same (.plain text) (new kind msg) = false :=
        Bool.eq_false_iff.mpr fun hsame => nomatch id.eq_of_same _ _ hsame
      rw [Err.is, hother]
      rfl
  | .nilError => scan_of_same (by rw [pointer_is_eq_scan]; rfl)
  | .leaf k _ => scan_of_same (pointer_is_eq_scan (some k) kind msg)
  | .wrapping k _ wrap => by
      have ih := is_eq_scan id kind msg wrap
      refine scan_of_same ?_
      rw [pointer_is_eq_scan, ih, ← scan_append]
      rfl
  | .errorf _ errs => scan_of_same (isAny_eq_scan id kind msg errs)

theorem isAny_eq_scan (id : Identity) (kind : Kind) (msg : String) :
    (errs : List Err) → isAny id (new kind msg) errs = scan kind (chainAll errs)
  | [] => rfl
  | err :: errs => by
      rw [isAny, chainAll, scan_append, is_eq_scan id kind msg err, isAny_eq_scan id kind msg errs]
end

/-- The walk answers rightly if it meets the kind before a nil pointer, or no nil pointer at all. -/
theorem scan_eq_iff (kind : Kind) (l : List Pointer) : scan kind l = .ok (decide (kind ∈ l.reduceOption)) ↔
    none ∉ l ∨ some kind ∈ l.takeWhile Option.isSome := by
  induction l with
  | nil => simp [scan]
  | cons e l ih =>
      cases e with
      | none => simp [scan]
      | some k =>
          by_cases hk : k = kind
          · simp [scan, hk]
          · simp [scan, hk, Ne.symm hk, ih]

theorem kindOf_eq_iff (err : Option Err) :
    kindOf err = .ok ((kinds err).head?.getD .unknown) ↔ (pointers err).head? ≠ some none := by
  have has : err.bind Err.as = (pointers err).head? := by
    cases err with
    | none => rfl
    | some err => exact as_eq_head? err
  rw [kindOf, has, kinds]
  cases pointers err with
  | nil => simp
  | cons e l => cases e <;> simp [Pointer.kind]

/-! ## Classification -/

/-- What is asked of an error: its kind is that of the outermost `*Error`, it has a status, the sentinels are found by
kind, and a nil `*Error` is like nil. -/
structure Coherent (id : Identity) (err : Option Err) : Prop where
  kindOf : kindOf err = .ok ((kinds err).head?.getD .unknown)
  httpStatus : ∃ status, httpStatus err = .ok status
  errorsIs : ∀ s ∈ sentinels, errorsIs id err (new s.1 s.2) = .ok (decide (s.1 ∈ kinds err))
  asNil : ∀ kind msg, err = some (wrap kind none msg) → Errorsx.kindOf err = Errorsx.kindOf none ∧
    Errorsx.httpStatus err = Errorsx.httpStatus none ∧
      ∀ s ∈ sentinels, Errorsx.errorsIs id err (new s.1 s.2) = Errorsx.errorsIs id none (new s.1 s.2)

theorem errorsIs_eq_scan (id : Identity) (err : Option Err) (kind : Kind) (msg : String) :
    errorsIs id err (new kind msg) = scan kind (pointers err) := by
  cases err with
  | none => rfl
  | some err => exact is_eq_scan id kind msg err

theorem head?_ne_nil (h : none ∉ l ∨ ∀ s ∈ sentinels, some s.1 ∈ l.takeWhile Option.isSome) : l.head? ≠ some none := by
  intro hhead
  obtain ⟨rest, rfl⟩ := List.head?_eq_some_iff.mp hhead
  rcases h with hnone | hall
  · exact hnone List.mem_cons_self
  · exact List.not_mem_nil (hall (.notFound, "not found") List.mem_cons_self)

/-- An error is classified if and only if there is no nil `*Error` in its chain, or the kinds of all sentinels come
before the first one. -/
theorem coherent_iff (id : Identity) (err : Option Err) : Coherent id err ↔
    none ∉ pointers err ∨ ∀ s ∈ sentinels, some s.1 ∈ (pointers err).takeWhile Option.isSome := by
  constructor
  · intro h
    by_cases hnil : none ∈ pointers err
    · refine .inr fun s hs => ?_
      have hscan := h.errorsIs s hs
      rw [errorsIs_eq_scan] at hscan
      exact ((scan_eq_iff _ _).mp hscan).resolve_left (not_not_intro hnil)
    · exact .inl hnil
  · intro h
    have hkind := (kindOf_eq_iff err).mpr (head?_ne_nil h)
    refine ⟨hkind, ⟨_, by rw [httpStatus, hkind]; rfl⟩, fun s hs => ?_, ?_⟩
    · rw [errorsIs_eq_scan]
      exact (scan_eq_iff _ _).mpr (h.imp_right fun hall => hall s hs)
    · rintro kind msg rfl
      exact absurd rfl (head?_ne_nil h)

/-- Two sentinels of a name are one pointer, and so are two nil pointers. No other error is met twice. -/
def sentinelIdentity : Identity where
  same
    | .leaf kind msg, .leaf kind' msg' => decide (kind = kind' ∧ msg = msg' ∧ (kind, msg) ∈ sentinels)
    | .nilError, .nilError => true
    | _, _ => false
  eq_of_same err err' hsame := by
    cases err with
    | leaf kind msg =>
        cases err' with
        | leaf kind' msg' =>
            obtain ⟨rfl, rfl, _⟩ := of_decide_eq_true hsame
            rfl
        | _ => cases hsame
    | nilError =>
        cases err' with
        | nilError => rfl
        | _ => cases hsame
    | _ => cases err' <;> cases hsame

/-- A sentinel that was wrapped twice. -/
theorem coherent_iff_wrapped : Coherent sentinelIdentity
    (some (wrap .unavailable (some (.errorf "load: not found" [new .notFound "not found"])) "retry later")) :=
  (coherent_iff _ _).mpr (.inl (by decide))

theorem wrapped_nil_dereferenced : kindOf (some (wrap .notFound none "lookup")) = .error .nilDereference ∧
    kindOf none = .ok .unknown :=
  ⟨rfl, rfl⟩

end Gopkg.Errorsx
