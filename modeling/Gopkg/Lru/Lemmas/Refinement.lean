import Gopkg.Lru.Lemmas.Representation

/-!
# The cache is a recency list

Every call keeps the map and the list consistent, and on the entries it is the call of the recency list.
-/

namespace Gopkg.Lru

variable {K V : Type} {c : Cache K V} {el : Nat} {en : Entry K V} {l : List (Entry K V)}

/-! ## The policy of a cache -/

def Cache.policy (c : Cache K V) : Policy where
  size := c.capacity.toNat
  ttl := if 0 < c.ttl then some c.ttl.toNat else none

theorem policy_new (capacity ttl : Int) : (Cache.new capacity ttl : Cache K V).policy =
    ⟨(max 1 capacity).toNat, if 0 < ttl then some ttl.toNat else none⟩ := by
  have hsize : (if capacity < 1 then 1 else capacity) = max 1 capacity := by split <;> omega
  rw [Cache.policy, Cache.new, hsize]

theorem moveToFront_policy (c : Cache K V) (el : Nat) : (c.moveToFront el).policy = c.policy := by
  unfold Cache.moveToFront
  split <;> rfl

theorem expiry_iff (c : Cache K V) (now : Nat) {n : Nat} (hn : c.ttl ≤ 0 → n = 0) :
    (c.expiry now).getD n ≠ 0 ↔ 0 < c.ttl := by
  unfold Cache.expiry
  split
  · simp only [Option.getD_some]
    omega
  · simp only [Option.getD_none]
    omega

theorem expiry_eq (c : Cache K V) (now : Nat) {n : Nat} (hn : c.ttl ≤ 0 → n = 0) :
    (c.expiry now).getD n = (c.policy.ttl.map (now + ·)).getD 0 := by
  unfold Cache.expiry Cache.policy
  split
  · rfl
  · simp only [Option.getD_none, Option.map_none]
    omega

/-! ## What a call does -/

/-- What a call does, on the entries of a cache that is not over its size. -/
structure Refines (c c' : Cache K V) (p : List (Entry K V)) : Prop where
  consistent : Consistent c'
  entries : c'.entries = p
  policy : c'.policy = c.policy

theorem Consistent.clear (h : Consistent c) : Refines c c.clear [] where
  consistent := ⟨by simp [Cache.clear], by simp [Cache.clear], by simp [Cache.clear], by simp [Cache.clear],
    h.expiry⟩
  entries := rfl
  policy := rfl

theorem mem_entries (hel : el ∈ c.ll) (hen : c.heap el = some en) : en ∈ c.entries :=
  List.mem_filterMap.mpr ⟨el, hel, hen⟩

theorem Consistent.key_ne (h : Consistent c) {key : K} (hi : c.items key = none) :
    ∀ en ∈ c.entries, en.key ≠ key := by
  rintro en hmem rfl
  obtain ⟨el, hel, hen⟩ := List.mem_filterMap.mp hmem
  obtain ⟨en', hen', hi'⟩ := h.element el hel
  cases hen.symm.trans hen'
  exact nomatch hi.symm.trans hi'

variable [DecidableEq K]

/-! ## Lists with distinct keys -/

theorem lookup_eq_some (hn : (l.map Entry.key).Nodup) {key : K} :
    lookup l key = some en ↔ en ∈ l ∧ en.key = key := by
  constructor
  · intro h
    exact ⟨List.mem_of_find?_eq_some h, by simpa using List.find?_some h⟩
  · rintro ⟨hmem, rfl⟩
    cases hf : lookup l en.key with
    | none =>
        have := List.find?_eq_none.mp hf en hmem
        simp at this
    | some en' =>
        have hk : en'.key = en.key := by simpa using List.find?_some hf
        rw [List.inj_on_of_nodup_map hn (List.mem_of_find?_eq_some hf) hmem hk]

theorem dropKey_eq_self {key : K} (h : ∀ en ∈ l, en.key ≠ key) : dropKey key l = l := by
  rw [dropKey, List.filter_eq_self]
  simpa using h

theorem dropKey_last (hn : ((l ++ [en]).map Entry.key).Nodup) : dropKey en.key (l ++ [en]) = l := by
  rw [List.map_append, List.nodup_append] at hn
  have hne : ∀ en' ∈ l, en'.key ≠ en.key := by
    intro en' hmem
    exact hn.2.2 _ (List.mem_map_of_mem hmem) _ (by simp)
  rw [dropKey, List.filter_append]
  simpa using hne

theorem length_promote_le (hmem : en ∈ l) {en' : Entry K V} (hk : en'.key = en.key) :
    (promote en' l).length ≤ l.length := by
  rw [promote, List.length_cons, dropKey]
  refine List.length_filter_lt_length_iff_exists.mpr ⟨en, hmem, ?_⟩
  simp [hk]

/-! ## The operations -/

theorem Consistent.lookup_some (h : Consistent c) {key : K} (hi : c.items key = some el)
    (hen : c.heap el = some en) : lookup c.entries key = some en := by
  obtain ⟨hel, en', hen', hk⟩ := h.item key el hi
  cases hen.symm.trans hen'
  exact (lookup_eq_some h.keys_nodup).mpr ⟨mem_entries hel hen, hk⟩

theorem Consistent.lookup_none (h : Consistent c) {key : K} (hi : c.items key = none) :
    lookup c.entries key = none := by
  rw [lookup, List.find?_eq_none]
  simpa using h.key_ne hi

theorem Consistent.removeOldest (h : Consistent c) (hlen : 0 < c.len) :
    Consistent c.removeOldest ∧ c.removeOldest.entries = c.entries.take (c.len - 1) := by
  obtain ⟨ys, el, hll⟩ : ∃ ys el, c.ll = ys ++ [el] := by
    have hne : c.ll ≠ [] := List.ne_nil_of_length_pos hlen
    exact ⟨_, _, (List.dropLast_append_getLast hne).symm⟩
  have hel : el ∈ c.ll := by simp [hll]
  obtain ⟨en, hen, _⟩ := h.element el hel
  have hentries : c.entries = ys.filterMap c.heap ++ [en] := by
    rw [Cache.entries, hll, List.filterMap_append, List.filterMap_cons_some hen, List.filterMap_nil]
  have hold : c.removeOldest = c.remove el := by
    rw [Cache.removeOldest, hll, List.getLast?_append]
    rfl
  have hlength : c.len - 1 = (ys.filterMap c.heap).length := by
    rw [← h.length_entries, hentries, List.length_append, List.length_singleton, Nat.add_sub_cancel]
  have hn := h.keys_nodup
  rw [hentries] at hn
  refine ⟨hold ▸ h.remove hel hen, ?_⟩
  rw [hold, h.entries_remove hel hen, hlength, hentries, dropKey_last hn, List.take_left']
  rfl

theorem remove_policy (c : Cache K V) (el : Nat) : (c.remove el).policy = c.policy := by
  unfold Cache.remove
  split <;> rfl

theorem removeOldest_policy (c : Cache K V) : c.removeOldest.policy = c.policy := by
  unfold Cache.removeOldest
  split
  · exact remove_policy c _
  · rfl

theorem Consistent.refines_remove (h : Consistent c) {key : K} (hi : c.items key = some el) :
    Refines c (c.remove el) (dropKey key c.entries) := by
  obtain ⟨hel, en, hen, rfl⟩ := h.item key el hi
  exact ⟨h.remove hel hen, h.entries_remove hel hen, remove_policy c el⟩

/-- `Set` on a key that the map has: nothing is evicted. -/
theorem Consistent.set_present (h : Consistent c) (hsize : c.len ≤ c.policy.size) (now : Nat) {key : K}
    (value : V) (hi : c.items key = some el) :
    Refines c (c.set now key value) (c.policy.call c.entries now (.set key value)).1 := by
  obtain ⟨hel, en, hen, rfl⟩ := h.item key el hi
  have he : c.ttl ≤ 0 → en.expireAt = 0 := by
    have := h.expiry el en hen
    omega
  obtain ⟨en', hen'⟩ : ∃ en' : Entry K V, en' = ⟨en.key, value, (c.expiry now).getD en.expireAt⟩ := ⟨_, rfl⟩
  have hk : en'.key = en.key := by rw [hen']
  have he' : en'.expireAt ≠ 0 ↔ 0 < c.ttl := by rw [hen']; exact expiry_iff c now he
  have hset : c.set now en.key value = { c with heap := Function.update c.heap el (some en') }.moveToFront el := by
    simp only [Cache.set, hi, hen, hen']
  have hrw := h.rewrite hen hk he'
  rw [hset]
  refine ⟨hrw.moveToFront hel, ?_, moveToFront_policy _ el⟩
  have hlen : (promote en' c.entries).length ≤ c.policy.size :=
    Nat.le_trans (length_promote_le (mem_entries hel hen) hk) (h.length_entries ▸ hsize)
  rw [hrw.entries_moveToFront hel (Function.update_self _ _ _), Policy.call, ← expiry_eq c now he,
    ← hen', List.take_of_length_le hlen, promote, promote, hk, h.dropKey_rewrite hel hen hk he']

/-- `Set` on a new key, with an eviction when the cache is full. -/
theorem Consistent.set_absent (h : Consistent c) (hpos : 0 < c.policy.size) (hsize : c.len ≤ c.policy.size)
    (now : Nat) {key : K} (value : V) (hi : c.items key = none) :
    Refines c (c.set now key value) (c.policy.call c.entries now (.set key value)).1 := by
  obtain ⟨en, hen⟩ : ∃ en : Entry K V, en = ⟨key, value, (c.expiry now).getD 0⟩ := ⟨_, rfl⟩
  have hk : en.key = key := by rw [hen]
  have hins := h.insert (hk ▸ hi) (by rw [hen]; exact expiry_iff c now fun _ => rfl)
  have hcall : (c.policy.call c.entries now (.set key value)).1 = (c.insert en).entries.take c.policy.size := by
    rw [Policy.call, ← expiry_eq c now fun _ => rfl, ← hen, promote, hk, dropKey_eq_self (h.key_ne hi),
      h.entries_insert]
  have hset : c.set now key value =
      if c.capacity < (c.insert en).len then (c.insert en).removeOldest else c.insert en := by
    simp only [Cache.set, hi, Cache.insert, hen]
    rfl
  have hlen : (c.insert en).len = c.len + 1 := rfl
  rw [hcall, hset]
  simp only [Cache.policy] at hpos hsize ⊢
  split
  · obtain ⟨hc, he⟩ := hins.removeOldest (Nat.succ_pos _)
    refine ⟨hc, ?_, removeOldest_policy _⟩
    have hfull : c.len + 1 - 1 = c.capacity.toNat := by omega
    rw [he, hlen, hfull]
  · refine ⟨hins, ?_, rfl⟩
    rw [List.take_of_length_le]
    rw [hins.length_entries]
    omega

theorem Consistent.get (h : Consistent c) (now : Nat) (key : K) :
    Refines c (c.get now key).1 (c.policy.call c.entries now (.get key)).1 ∧
      (c.get now key).2 = (c.policy.call c.entries now (.get key)).2 := by
  cases hi : c.items key with
  | none =>
      simp only [Cache.get, hi, Policy.call, h.lookup_none hi]
      exact ⟨⟨h, rfl, rfl⟩, trivial⟩
  | some el =>
      obtain ⟨hel, en, hen, hk⟩ := h.item key el hi
      have hexp : c.expired now en = c.policy.stale now en := by
        have := h.expiry el en hen
        unfold Cache.expired Policy.stale Cache.policy
        split <;> simp_all
      simp only [Cache.get, hi, hen, Policy.call, h.lookup_some hi hen, hexp]
      split
      · exact ⟨h.refines_remove hi, rfl⟩
      · exact ⟨⟨h.moveToFront hel, h.entries_moveToFront hel hen, moveToFront_policy c el⟩, rfl⟩

theorem Consistent.delete (h : Consistent c) (key : K) : Refines c (c.delete key) (dropKey key c.entries) := by
  unfold Cache.delete
  split
  · exact h.refines_remove ‹_›
  · rw [dropKey_eq_self (h.key_ne ‹_›)]
    exact ⟨h, rfl, rfl⟩

theorem Consistent.call (h : Consistent c) (hpos : 0 < c.policy.size) (hsize : c.len ≤ c.policy.size) (now : Nat)
    (op : Op K V) : Refines c (c.call now op).1 (c.policy.call c.entries now op).1 ∧
      (c.call now op).2 = (c.policy.call c.entries now op).2 := by
  cases op with
  | set key value =>
      refine ⟨?_, rfl⟩
      cases hi : c.items key with
      | some el => exact h.set_present hsize now value hi
      | none => exact h.set_absent hpos hsize now value hi
  | get key => exact h.get now key
  | delete key => exact ⟨h.delete key, rfl⟩
  | clear => exact ⟨h.clear, rfl⟩

/-! ## Runs -/

theorem Policy.length_call (p : Policy) (hl : l.length ≤ p.size) (now : Nat) (op : Op K V) :
    (p.call l now op).1.length ≤ p.size := by
  have hdrop : ∀ key : K, (dropKey key l).length ≤ p.size := fun key =>
    Nat.le_trans (List.length_filter_le _ _) hl
  cases op with
  | set key value =>
      rw [Policy.call, List.length_take]
      exact Nat.min_le_left _ _
  | get key =>
      rw [Policy.call]
      split
      · exact hl
      · rename_i en hen
        split
        · exact hdrop key
        · exact Nat.le_trans (length_promote_le (List.mem_of_find?_eq_some hen) rfl) hl
  | delete key => exact hdrop key
  | clear => exact Nat.zero_le _

/-- What holds of every cache that was made with the policy. -/
structure Reached (p : Policy) (c : Cache K V) : Prop where
  consistent : Consistent c
  policy : c.policy = p
  size : c.len ≤ p.size

theorem Reached.call {p : Policy} (h : Reached p c) (hpos : 0 < p.size) (now : Nat) (op : Op K V) :
    Reached p (c.call now op).1 ∧ (c.call now op).1.entries = (p.call c.entries now op).1 ∧
      (c.call now op).2 = (p.call c.entries now op).2 := by
  obtain ⟨hc, rfl, hsize⟩ := h
  obtain ⟨href, hans⟩ := hc.call hpos hsize now op
  refine ⟨⟨href.consistent, href.policy, ?_⟩, href.entries, hans⟩
  rw [← href.consistent.length_entries, href.entries]
  exact c.policy.length_call (hc.length_entries ▸ hsize) now op

theorem Reached.run {capacity ttl : Int} {t : List (Call K V)} (hr : Lts.Run Step (Cache.new capacity ttl) t c) :
    Reached (Cache.new capacity ttl : Cache K V).policy c := by
  have hpos : 0 < (Cache.new capacity ttl : Cache K V).policy.size := by
    rw [policy_new]
    dsimp only
    omega
  refine hr.stateInvariant ⟨.new capacity ttl, rfl, Nat.zero_le _⟩ fun c₁ evs c₂ h hs => ?_
  cases hs with
  | L_Call now op => exact (h.call hpos now op).1

end Gopkg.Lru
