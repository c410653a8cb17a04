import Gopkg.PendingQueue.Queue

/-!
# Theorems about the pending queue
-/

namespace Gopkg.PendingQueue

variable {K V E : Type} {w : World K V E} {r : Nat}

/-- The world after the functions were run on a registry. -/
def World.after (w : World K V E) (r : Nat) (fns : List (Registration K V E)) : World K V E :=
  { w with
    regs := Function.update w.regs r (runAll fns (w.regs r)).1
    runs := w.runs ++ fns.map fun fn => (fn, r) }

theorem after_nil (w : World K V E) (r : Nat) : w.after r [] = w := by
  simp [World.after, runAll]

/-- Running one function, and then the others. -/
theorem after_cons (w : World K V E) (r : Nat) (fn : Registration K V E) (fns : List (Registration K V E)) :
    (w.apply fn r).1.after r fns = w.after r (fn :: fns) := by
  simp [World.after, World.apply, runAll]

/-- The loop of `Flush` runs every function, and collects its error. -/
theorem applyAll_eq (fns : List (Registration K V E)) (w : World K V E) (errs : List (Option E)) :
    World.applyAll r w errs fns = (w.after r fns, errs ++ (runAll fns (w.regs r)).2) := by
  induction fns generalizing w errs with
  | nil => simp [World.applyAll, after_nil, runAll]
  | cons fn fns ih =>
      simp only [World.applyAll, ih, after_cons]
      simp [World.apply, runAll]

/-! ## Before the flush -/

theorem run_adds (h : w.target = none) (fns : List (Registration K V E)) (ops : List (Op K V E)) :
    w.run (fns.map .add ++ ops) = World.run { w with pending := w.pending ++ fns } ops := by
  induction fns generalizing w with
  | nil => simp
  | cons fn fns ih =>
      have hadd : w.add fn = { w with pending := w.pending ++ [fn] } := by simp [World.add, h]
      rw [List.map_cons, List.cons_append, World.run, hadd, ih (w := { w with pending := w.pending ++ [fn] }) h]
      simp

/-! ## After the flush -/

/-- Every function runs when it is added, and every flush returns nil. -/
theorem run_flushed (ops : List (Op K V E)) (w : World K V E) (h : w.target = some r) :
    w.run ops = some (w.after r (added ops), List.replicate (flushes ops) none) := by
  induction ops generalizing w with
  | nil => simp [World.run, added, flushes, after_nil]
  | cons op ops ih =>
      cases op with
      | add fn =>
          have hadd : w.add fn = (w.apply fn r).1 := by simp [World.add, h]
          rw [World.run, hadd, ih (w.apply fn r).1 h, after_cons]
          rfl
      | flush r' =>
          have hflush : w.flush r' = some (w, none) := by simp [World.flush, h]
          simp only [World.run, hflush, ih w h]
          rfl

theorem runAll_append (fns fns' : List (Registration K V E)) (reg : Registry K V) :
    (runAll (fns ++ fns') reg).1 = (runAll fns' (runAll fns reg).1).1 := by
  induction fns generalizing reg with
  | nil => rfl
  | cons fn fns ih => exact ih (fn reg).1

theorem after_append (w : World K V E) (fns fns' : List (Registration K V E)) :
    (w.after r fns).after r fns' = w.after r (fns ++ fns') := by
  simp [World.after, runAll_append]

/-! ## Duplicate keys -/

section Duplicates

variable [DecidableEq K]

/-- Of several values that are registered for a key, the first stays. -/
theorem runAll_register (kvs : List (K × V)) (reg : Registry K V) (k : K) :
    (runAll (kvs.map fun kv reg => reg.register kv.1 kv.2) reg).1.entries k =
      (reg.entries k).or ((kvs.find? fun kv => kv.1 = k).map (·.2)) := by
  induction kvs generalizing reg with
  | nil => simp [runAll]
  | cons kv kvs ih =>
      rw [List.map_cons, runAll, ih]
      by_cases hk : kv.1 = k
      · subst hk
        cases h : reg.entries kv.1 <;> simp [Registry.register, h]
      · cases h : reg.entries kv.1 <;> simp [Registry.register, h, hk, Function.update_of_ne (Ne.symm hk)]

/-- Of several values that replace each other, the last stays. -/
theorem runAll_replace (kvs : List (K × V)) (reg : Registry K V) (k : K) :
    (runAll (kvs.map fun kv reg => ((reg.replace kv.1 kv.2).1, (none : Option E))) reg).1.entries k =
      ((kvs.reverse.find? fun kv => kv.1 = k).map (·.2)).or (reg.entries k) := by
  induction kvs generalizing reg with
  | nil => simp [runAll]
  | cons kv kvs ih =>
      rw [List.map_cons, runAll, ih, List.reverse_cons, List.find?_append]
      by_cases hk : kv.1 = k
      · subst hk
        cases kvs.reverse.find? fun kv' => kv'.1 = kv.1 <;> simp [Registry.replace]
      · simp [Registry.replace, hk, Function.update_of_ne (Ne.symm hk)]

end Duplicates

/-- Wherever the first flush falls, the functions that are added run once each, in order, on the registry of that flush,
and no other registry changes. The first flush returns the errors of the functions that waited for it, and the later
ones return nil. -/
theorem pending_registrations_run_once (regs : Nat → Registry K V) (fns : List (Registration K V E)) (r : Nat)
    (ops : List (Op K V E)) :
    ∃ w, (World.start regs).run (fns.map .add ++ .flush (some r) :: ops) =
        some (w, some (runAll fns (regs r)).2 :: List.replicate (flushes ops) none) ∧
      w.runs = (fns ++ added ops).map (fun fn => (fn, r)) ∧
      w.regs = Function.update regs r (runAll (fns ++ added ops) (regs r)).1 := by
  let w₀ : World K V E := { World.start regs with target := some r }
  have hflush : World.flush { World.start regs with pending := fns } (some r) =
      some (w₀.after r fns, some (runAll fns (regs r)).2) := by
    simp only [World.flush, World.start, applyAll_eq]
    rfl
  have hlater := run_flushed ops (w₀.after r fns) rfl
  rw [after_append] at hlater
  refine ⟨w₀.after r (fns ++ added ops), ?_, rfl, rfl⟩
  rw [run_adds rfl]
  simp only [World.start, List.nil_append] at hflush ⊢
  rw [World.run, hflush]
  simp only [hlater]

end Gopkg.PendingQueue
