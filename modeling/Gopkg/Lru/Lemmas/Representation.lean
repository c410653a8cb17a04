import Mathlib.Data.List.Nodup
import Gopkg.Lru.Recency

/-!
# The map and the list

The map and the list of the cache describe the same entries. `entries` forgets the addresses, and the
operations on elements are operations on recency lists.
-/

namespace Gopkg.Lru

variable {K V : Type} {c : Cache K V} {el : Nat} {en : Entry K V}

/-- The map has exactly the elements of the list, each under the key of its entry. -/
structure Consistent (c : Cache K V) : Prop where
  element : ∀ el ∈ c.ll, ∃ en, c.heap el = some en ∧ c.items en.key = some el
  item : ∀ key el, c.items key = some el → el ∈ c.ll ∧ ∃ en, c.heap el = some en ∧ en.key = key
  nodup : c.ll.Nodup
  allocated : ∀ el ∈ c.ll, el < c.fresh
  expiry : ∀ el en, c.heap el = some en → (en.expireAt ≠ 0 ↔ 0 < c.ttl)

def Cache.entries (c : Cache K V) : List (Entry K V) := c.ll.filterMap c.heap

theorem Consistent.new (capacity ttl : Int) : Consistent (Cache.new capacity ttl : Cache K V) where
  element := by simp [Cache.new]
  item := by simp [Cache.new]
  nodup := by simp [Cache.new]
  allocated := by simp [Cache.new]
  expiry := by simp [Cache.new]

theorem Consistent.eq_of_key (h : Consistent c) {el' : Nat} {en' : Entry K V} (hel : el ∈ c.ll)
    (hel' : el' ∈ c.ll) (hen : c.heap el = some en) (hen' : c.heap el' = some en') (hk : en.key = en'.key) :
    el = el' := by
  obtain ⟨en₁, h₁, hi₁⟩ := h.element el hel
  obtain ⟨en₂, h₂, hi₂⟩ := h.element el' hel'
  cases hen.symm.trans h₁
  cases hen'.symm.trans h₂
  rw [hk] at hi₁
  exact Option.some.inj (hi₁.symm.trans hi₂)

theorem Consistent.keys_nodup (h : Consistent c) : (c.entries.map Entry.key).Nodup := by
  rw [Cache.entries, List.Nodup, List.pairwise_map, List.pairwise_filterMap]
  refine h.nodup.imp_of_mem ?_
  intro el el' hel hel' hne en hen en' hen' hk
  exact hne (h.eq_of_key hel hel' hen hen' hk)

theorem Consistent.length_entries (h : Consistent c) : c.entries.length = c.len := by
  refine List.filterMap_length_eq_length.mpr fun el hel => ?_
  obtain ⟨en, hen, _⟩ := h.element el hel
  rw [hen]
  rfl

theorem Consistent.moveToFront (h : Consistent c) (hel : el ∈ c.ll) : Consistent (c.moveToFront el) := by
  rw [Cache.moveToFront, if_pos hel]
  have hmem : ∀ el', el' ∈ el :: c.ll.erase el ↔ el' ∈ c.ll := fun el' => (List.perm_cons_erase hel).symm.mem_iff
  refine ⟨fun el' hel' => ?_, fun key el' hi => ?_, ?_, fun el' hel' => ?_, h.expiry⟩
  · exact h.element el' ((hmem el').mp hel')
  · exact (h.item key el' hi).imp_left (hmem el').mpr
  · exact (List.perm_cons_erase hel).nodup_iff.mp h.nodup
  · exact h.allocated el' ((hmem el').mp hel')

/-- `en.value = value` and `en.expireAt = now.Add(c.ttl)`. -/
theorem Consistent.rewrite (h : Consistent c) {en' : Entry K V} (hen : c.heap el = some en)
    (hk : en'.key = en.key) (he : en'.expireAt ≠ 0 ↔ 0 < c.ttl) :
    Consistent { c with heap := Function.update c.heap el (some en') } := by
  refine ⟨fun el₁ hel₁ => ?_, fun key el₁ hi => ?_, h.nodup, h.allocated, fun el₁ en₁ h₁ => ?_⟩
  · obtain ⟨en₁, hen₁, hi₁⟩ := h.element el₁ hel₁
    by_cases heq : el₁ = el
    · subst heq
      cases hen.symm.trans hen₁
      exact ⟨en', Function.update_self _ _ _, hk ▸ hi₁⟩
    · exact ⟨en₁, (Function.update_of_ne heq _ _).trans hen₁, hi₁⟩
  · obtain ⟨hel₁, en₁, hen₁, hk₁⟩ := h.item key el₁ hi
    refine ⟨hel₁, ?_⟩
    by_cases heq : el₁ = el
    · subst heq
      cases hen.symm.trans hen₁
      exact ⟨en', Function.update_self _ _ _, hk.trans hk₁⟩
    · exact ⟨en₁, (Function.update_of_ne heq _ _).trans hen₁, hk₁⟩
  · by_cases heq : el₁ = el
    · subst heq
      simp only [Function.update_self, Option.some.injEq] at h₁
      exact h₁ ▸ he
    · simp only [Function.update_of_ne heq] at h₁
      exact h.expiry el₁ en₁ h₁

variable [DecidableEq K]

/-- An entry leaves the list together with its element. -/
theorem Consistent.filterMap_erase (h : Consistent c) (hel : el ∈ c.ll) (hen : c.heap el = some en) :
    (c.ll.erase el).filterMap c.heap = dropKey en.key c.entries := by
  rw [h.nodup.erase_eq_filter, Cache.entries, dropKey, List.filterMap_filter, List.filter_filterMap]
  refine List.filterMap_congr fun el' hel' => ?_
  obtain ⟨en', hen', _⟩ := h.element el' hel'
  by_cases he : el' = el
  · subst he
    cases hen.symm.trans hen'
    simp [hen, Option.filter]
  · have hk : en'.key ≠ en.key := fun hk => he (h.eq_of_key hel' hel hen' hen hk)
    simp [he, hen', hk, Option.filter]

/-! ## `remove` -/

theorem Consistent.remove (h : Consistent c) (hel : el ∈ c.ll) (hen : c.heap el = some en) :
    Consistent (c.remove el) := by
  rw [Cache.remove, hen]
  refine ⟨fun el' hel' => ?_, fun key el' hi => ?_, h.nodup.erase _, fun el' hel' => ?_, h.expiry⟩
  · rw [h.nodup.mem_erase_iff] at hel'
    obtain ⟨en', hen', hi⟩ := h.element el' hel'.2
    have hk : en'.key ≠ en.key := fun hk => hel'.1 (h.eq_of_key hel'.2 hel hen' hen hk)
    exact ⟨en', hen', (Function.update_of_ne hk _ _).trans hi⟩
  · by_cases hk : key = en.key
    · subst hk
      simp at hi
    · simp only [Function.update_of_ne hk] at hi
      obtain ⟨hel', en', hen', rfl⟩ := h.item key el' hi
      refine ⟨(h.nodup.mem_erase_iff).mpr ⟨?_, hel'⟩, en', hen', rfl⟩
      rintro rfl
      cases hen.symm.trans hen'
      exact hk rfl
  · exact h.allocated el' (List.mem_of_mem_erase hel')

theorem Consistent.entries_remove (h : Consistent c) (hel : el ∈ c.ll) (hen : c.heap el = some en) :
    (c.remove el).entries = dropKey en.key c.entries := by
  rw [Cache.remove, hen]
  exact h.filterMap_erase hel hen

/-! ## `MoveToFront` -/

theorem Consistent.entries_moveToFront (h : Consistent c) (hel : el ∈ c.ll) (hen : c.heap el = some en) :
    (c.moveToFront el).entries = promote en c.entries := by
  rw [Cache.moveToFront, if_pos hel, Cache.entries, List.filterMap_cons_some hen, promote]
  exact congrArg _ (h.filterMap_erase hel hen)

/-! ## Writing to an entry -/

theorem Consistent.dropKey_rewrite (h : Consistent c) {en' : Entry K V} (hel : el ∈ c.ll)
    (hen : c.heap el = some en) (hk : en'.key = en.key) (he : en'.expireAt ≠ 0 ↔ 0 < c.ttl) :
    dropKey en.key { c with heap := Function.update c.heap el (some en') }.entries = dropKey en.key c.entries := by
  have h' := (h.rewrite hen hk he).filterMap_erase hel (Function.update_self _ _ _)
  rw [hk] at h'
  rw [← h', ← h.filterMap_erase hel hen]
  refine List.filterMap_congr fun el₁ hel₁ => ?_
  have hne : el₁ ≠ el := (h.nodup.mem_erase_iff.mp hel₁).1
  exact Function.update_of_ne hne _ _

/-! ## `PushFront` -/

/-- A new element, under a key that the map does not have. -/
def Cache.insert (c : Cache K V) (en : Entry K V) : Cache K V :=
  { c.pushFront en with items := Function.update c.items en.key (some c.fresh) }

theorem Consistent.heap_insert (h : Consistent c) (hel : el ∈ c.ll) : (c.insert en).heap el = c.heap el :=
  Function.update_of_ne (Nat.ne_of_lt (h.allocated el hel)) _ _

theorem Consistent.insert (h : Consistent c) (hnone : c.items en.key = none)
    (he : en.expireAt ≠ 0 ↔ 0 < c.ttl) : Consistent (c.insert en) := by
  have hfresh : c.fresh ∉ c.ll := fun hel => Nat.lt_irrefl _ (h.allocated _ hel)
  refine ⟨fun el hel => ?_, fun key el hi => ?_, List.nodup_cons.mpr ⟨hfresh, h.nodup⟩, fun el hel => ?_,
    fun el en₁ h₁ => ?_⟩
  · rcases List.mem_cons.mp hel with rfl | hel
    · exact ⟨en, Function.update_self _ _ _, Function.update_self _ _ _⟩
    · obtain ⟨en₁, hen₁, hi₁⟩ := h.element el hel
      refine ⟨en₁, (h.heap_insert hel).trans hen₁, ?_⟩
      have hk : en₁.key ≠ en.key := fun hk => nomatch (hk ▸ hi₁).symm.trans hnone
      exact (Function.update_of_ne hk _ _).trans hi₁
  · by_cases hk : key = en.key
    · subst hk
      simp only [Cache.insert, Function.update_self, Option.some.injEq] at hi
      subst hi
      exact ⟨List.mem_cons_self, en, Function.update_self _ _ _, rfl⟩
    · simp only [Cache.insert, Function.update_of_ne hk] at hi
      obtain ⟨hel, en₁, hen₁, hk₁⟩ := h.item key el hi
      exact ⟨List.mem_cons_of_mem _ hel, en₁, (h.heap_insert hel).trans hen₁, hk₁⟩
  · rcases List.mem_cons.mp hel with rfl | hel
    · exact Nat.lt_succ_self _
    · exact Nat.lt_succ_of_lt (h.allocated el hel)
  · by_cases heq : el = c.fresh
    · subst heq
      simp only [Cache.insert, Cache.pushFront, Function.update_self, Option.some.injEq] at h₁
      exact h₁ ▸ he
    · simp only [Cache.insert, Cache.pushFront, Function.update_of_ne heq] at h₁
      exact h.expiry el en₁ h₁

theorem Consistent.entries_insert (h : Consistent c) : (c.insert en).entries = en :: c.entries := by
  rw [Cache.entries, Cache.insert, Cache.pushFront]
  rw [List.filterMap_cons_some (Function.update_self _ _ _)]
  exact congrArg _ (List.filterMap_congr fun el hel => h.heap_insert hel)

end Gopkg.Lru
