import Mathlib.Data.List.Infix
import Mathlib.Data.Nat.Find

/-!
# The longest code that a list begins with
-/

namespace Gopkg.Prefix

variable {α : Type*} {P : List α → Prop} {l c c' : List α}

/-- `c` is the longest of the codes that `l` begins with. -/
structure Longest (P : List α → Prop) (l c : List α) : Prop where
  code : P c
  starts : c <+: l
  length_le : ∀ c', P c' → c' <+: l → c'.length ≤ c.length

theorem Longest.unique (h : Longest P l c) (h' : Longest P l c') : c = c' := by
  have hlen : c.length = c'.length :=
    Nat.le_antisymm (h'.length_le c h.code h.starts) (h.length_le c' h'.code h'.starts)
  exact (List.prefix_of_prefix_length_le h.starts h'.starts hlen.le).eq_of_length hlen

theorem exists_longest (hc : P c) (hstarts : c <+: l) : ∃ c, Longest P l c := by
  classical
  have htake : P (l.take c.length) := by
    rw [← List.prefix_iff_eq_take.mp hstarts]
    exact hc
  refine ⟨l.take (Nat.findGreatest (fun n => P (l.take n)) l.length), ?_, List.take_prefix _ _, ?_⟩
  · exact Nat.findGreatest_spec (P := fun n => P (l.take n)) hstarts.length_le htake
  · intro c' hc' hstarts'
    rw [List.length_take, Nat.min_eq_left (Nat.findGreatest_le _)]
    apply Nat.le_findGreatest hstarts'.length_le
    rw [← List.prefix_iff_eq_take.mp hstarts']
    exact hc'

/-- All codes have the same first element. -/
theorem Longest.cons {a : α} (hP : ∀ c, P c → ∃ c', c = a :: c') (h : Longest (fun c => P (a :: c)) l c) :
    Longest P (a :: l) (a :: c) := by
  refine ⟨h.code, List.prefix_cons_inj a |>.mpr h.starts, fun c' hc' hstarts => ?_⟩
  obtain ⟨c'', rfl⟩ := hP c' hc'
  exact Nat.succ_le_succ (h.length_le c'' hc' ((List.prefix_cons_inj a).mp hstarts))

/-! ## Probing for it -/

section Probing

variable {ns : List Nat} {p : Nat → Bool} {n : Nat} (hp : ∀ n, p n = true ↔ n ≤ l.length ∧ P (l.take n))

include hp

theorem probe_of_starts (hc : P c) (hstarts : c <+: l) : p c.length = true := by
  rw [hp, ← List.prefix_iff_eq_take.mp hstarts]
  exact ⟨hstarts.length_le, hc⟩

theorem longest_of_find (hlen : ∀ c, P c → c.length ∈ ns) (hdesc : ns.Pairwise (· > ·)) (h : ns.find? p = some n) :
    Longest P l (l.take n) := by
  obtain ⟨hn, before, after, rfl, hbefore⟩ := List.find?_eq_some_iff_append.mp h
  obtain ⟨hle, hcode⟩ := (hp n).mp hn
  refine ⟨hcode, List.take_prefix _ _, fun c hc hstarts => ?_⟩
  rw [List.length_take, Nat.min_eq_left hle]
  rcases List.mem_append.mp (hlen c hc) with hmem | hmem
  · -- a longer code would have been found before
    have hmissed := hbefore _ hmem
    rw [probe_of_starts hp hc hstarts] at hmissed
    cases hmissed
  · rcases List.mem_cons.mp hmem with heq | hmem
    · exact heq.le
    · exact (List.rel_of_pairwise_cons (List.pairwise_append.mp hdesc).2.1 hmem).le

theorem not_starts_of_find (hlen : ∀ c, P c → c.length ∈ ns) (h : ns.find? p = none) (hc : P c) : ¬ c <+: l :=
  fun hstarts => List.find?_eq_none.mp h _ (hlen c hc) (probe_of_starts hp hc hstarts)

end Probing

end Gopkg.Prefix
