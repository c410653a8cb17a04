import Mathlib.Data.Finmap

/-!
# Maps of Go

A map is a `Finmap`. A `range` over it goes through its entries in any order.
-/

namespace Gopkg.Go

/-- `map[K]V` -/
abbrev Map (K V : Type) := Finmap fun _ : K => V

abbrev Entry (K V : Type) := (_ : K) × V

variable {K V : Type} {m : Map K V} {order : List (Entry K V)} {k : K} {v : V}

/-- An order in which a `range` may go through the map. -/
def Iterates (m : Map K V) (order : List (Entry K V)) : Prop := (order : Multiset (Entry K V)) = m.entries

theorem Iterates.nodupKeys (h : Iterates m order) : order.NodupKeys := by
  have hm := m.nodupKeys
  rwa [← h, Multiset.coe_nodupKeys] at hm

theorem exists_iterates (m : Map K V) : ∃ order, Iterates m order := Quot.exists_rep m.entries

variable [DecidableEq K]

theorem Iterates.mem_iff (h : Iterates m order) : ⟨k, v⟩ ∈ order ↔ m.lookup k = some v := by
  rw [Finmap.lookup_eq_some_iff, ← h, Multiset.mem_coe]

/-- Any entry may come first. -/
theorem exists_iterates_first (h : m.lookup k = some v) : ∃ rest, Iterates m (⟨k, v⟩ :: rest) := by
  obtain ⟨others, hothers⟩ := Multiset.exists_cons_of_mem (Finmap.lookup_eq_some_iff.mp h)
  obtain ⟨rest, rfl⟩ := Quot.exists_rep others
  exact ⟨rest, hothers.symm⟩

/-! ## Writes -/

/-- The map after the writes `m[k] = v`, one after another. -/
def writeAll (m : Map K V) (ws : List (K × V)) : Map K V := ws.foldl (fun m w => m.insert w.1 w.2) m

/-- What was written last to a key. -/
def latest : List (K × V) → K → Option V
  | [], _ => none
  | w :: ws, k => (latest ws k).or (if w.1 = k then some w.2 else none)

theorem lookup_insert_eq (m : Map K V) (k' : K) (v : V) (k : K) :
    (m.insert k' v).lookup k = (if k' = k then some v else none).or (m.lookup k) := by
  by_cases hk : k' = k
  · rw [if_pos hk, ← hk, Finmap.lookup_insert, Option.some_or]
  · rw [if_neg hk, Finmap.lookup_insert_of_ne _ (Ne.symm hk), Option.none_or]

theorem lookup_writeAll (m : Map K V) (ws : List (K × V)) (k : K) :
    (writeAll m ws).lookup k = (latest ws k).or (m.lookup k) := by
  induction ws generalizing m with
  | nil => rfl
  | cons w ws ih =>
      rw [latest, Option.or_assoc, ← lookup_insert_eq]
      exact ih _

/-- A key that stands for `p` alone keeps what is written to `p`. -/
theorem latest_map_key {P : Type} [DecidableEq P] (key : P → K) {p : P} {ws : List (P × V)}
    (hapart : ∀ w ∈ ws, key w.1 = key p → w.1 = p) :
    latest (ws.map fun w => (key w.1, w.2)) (key p) = latest ws p := by
  induction ws with
  | nil => rfl
  | cons w ws ih =>
      have hw : key w.1 = key p ↔ w.1 = p := ⟨hapart w List.mem_cons_self, congrArg key⟩
      rw [List.map_cons, latest, latest, ih fun w' hw' => hapart w' (List.mem_cons_of_mem _ hw')]
      simp only [hw]

theorem latest_entries (hkeys : order.NodupKeys) (k : K) :
    latest (order.map fun e => (e.1, e.2)) k = order.dlookup k := by
  induction order with
  | nil => rfl
  | cons e rest ih =>
      obtain ⟨hfresh, hrest⟩ := List.nodupKeys_cons.mp hkeys
      rw [List.map_cons, latest, ih hrest]
      by_cases hk : e.1 = k
      · subst hk
        rw [if_pos rfl, List.dlookup_eq_none.mpr hfresh, Option.none_or, List.dlookup_cons_eq]
      · rw [if_neg hk, Option.or_none, List.dlookup_cons_ne _ _ (Ne.symm hk)]

/-- A map that is copied entry by entry is the same map. -/
theorem Iterates.writeAll_eq (h : Iterates m order) : writeAll ∅ (order.map fun e => (e.1, e.2)) = m := by
  have hkeys := h.nodupKeys
  refine Finmap.ext_lookup fun k => Option.ext fun v => ?_
  rw [lookup_writeAll, latest_entries hkeys, Finmap.lookup_empty, Option.or_none, ← h.mem_iff]
  exact List.mem_dlookup_iff hkeys

end Gopkg.Go
