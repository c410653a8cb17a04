import Gopkg.Lru.Lemmas.Refinement

/-!
# Recency and eviction

How the entries of a recency list follow from the history of its calls. The entries before the one with a key
have all been touched since that key was, so that an entry is evicted only after enough other keys.
-/

namespace Gopkg.Lru

variable {K V : Type} [DecidableEq K] {p : Policy} {h : List (Call K V)} {l : List (Entry K V)} {en : Entry K V}
  {now : Nat} {key : K}

/-! ## One more call -/

theorem written_set (value : V) (a : Option V) (k : K) : written (h ++ [⟨now, .set key value, a⟩]) k =
    if key = k then some (value, now) else written h k := by
  simp [written, List.foldl_append]

theorem written_get (a : Option V) (k : K) : written (h ++ [⟨now, .get key, a⟩]) k = written h k := by
  simp [written, List.foldl_append]

theorem written_delete (a : Option V) (k : K) :
    written (h ++ [⟨now, .delete key, a⟩]) k = if key = k then none else written h k := by
  simp [written, List.foldl_append]

theorem written_clear (a : Option V) (k : K) : written (h ++ [⟨now, .clear, a⟩]) k = none := by
  simp [written, List.foldl_append]

theorem others_touched {x : Call K V} (hx : x.touched = some key) (k : K) :
    others (h ++ [x]) k = if key = k then [] else (others h k).insert key := by
  simp [others, List.foldl_append, hx]

theorem others_untouched {x : Call K V} (hx : x.touched = none) (k : K) : others (h ++ [x]) k = others h k := by
  simp [others, List.foldl_append, hx]

/-! ## The order of the entries -/

/-- What comes first has been touched later. -/
def Ordered (h : List (Call K V)) (l : List (Entry K V)) : Prop := l.Pairwise fun x y => x.key ∈ others h y.key

theorem Ordered.sublist {l' : List (Entry K V)} (ho : Ordered h l) (hs : l'.Sublist l) : Ordered h l' :=
  List.Pairwise.sublist hs ho

theorem Ordered.promote {x : Call K V} (ho : Ordered h l) (hx : x.touched = some en.key) :
    Ordered (h ++ [x]) (promote en l) := by
  have hne : ∀ y ∈ dropKey en.key l, en.key ≠ y.key := by
    intro y hy heq
    have := (List.mem_filter.mp hy).2
    simp [heq] at this
  refine List.pairwise_cons.mpr ⟨fun y hy => ?_, ?_⟩
  · rw [others_touched hx, if_neg (hne y hy)]
    exact List.mem_insert_self
  · refine (ho.sublist List.filter_sublist).imp_of_mem fun {x₁ y} _ hy hmem => ?_
    rw [others_touched hx, if_neg (hne y hy)]
    exact List.mem_insert_of_mem hmem

/-- An entry is behind at most as many others as have been touched since its own key was. -/
theorem Ordered.le_others (ho : Ordered h l) (hn : (l.map Entry.key).Nodup) {n : Nat} (hmem : en ∈ l.drop n) :
    n ≤ (others h en.key).length := by
  have hlen : n ≤ l.length := by
    have := List.length_pos_of_mem hmem
    rw [List.length_drop] at this
    omega
  have hsplit : Ordered h (l.take n ++ l.drop n) := by rwa [List.take_append_drop]
  have hsub : (l.take n).map Entry.key ⊆ others h en.key := by
    intro k hk
    obtain ⟨x, hx, rfl⟩ := List.mem_map.mp hk
    exact (List.pairwise_append.mp hsplit).2.2 x hx en hmem
  have hnodup : ((l.take n).map Entry.key).Nodup := hn.sublist ((List.take_sublist n l).map _)
  calc n = ((l.take n).map Entry.key).length := by rw [List.length_map, List.length_take, Nat.min_eq_left hlen]
    _ ≤ (others h en.key).length := hnodup.length_le_of_subset hsub

/-! ## What the entries are -/

/-- The entries are live values of the history, and a value that is missing has expired or was evicted. -/
structure Faithful (p : Policy) (h : List (Call K V)) (l : List (Entry K V)) : Prop where
  source : ∀ en ∈ l, ∃ t, written h en.key = some (en.value, t) ∧ en.expireAt = (p.ttl.map (t + ·)).getD 0
  order : Ordered h l
  kept : ∀ key v t, written h key = some (v, t) → (∃ en ∈ l, en.key = key) ∨
    (∃ d, p.ttl = some d ∧ ∃ x ∈ h, t + d < x.now) ∨ p.size ≤ (others h key).length

theorem mem_dropKey {k : K} : en ∈ dropKey k l ↔ en ∈ l ∧ en.key ≠ k := by
  simp [dropKey]

theorem exists_promote (en : Entry K V) (hmem : ∃ en' ∈ l, en'.key = key) : ∃ en' ∈ promote en l, en'.key = key := by
  obtain ⟨en', hl, rfl⟩ := hmem
  by_cases hk : en'.key = en.key
  · exact ⟨en, List.mem_cons_self, hk.symm⟩
  · exact ⟨en', List.mem_cons_of_mem _ (mem_dropKey.mpr ⟨hl, hk⟩), rfl⟩

omit [DecidableEq K] in
theorem touched_ne {x : Call K V} (hx : x.touched = none) (k : K) : x.touched ≠ some k := by
  rw [hx]
  exact (Option.some_ne_none k).symm

/-- What is missing stays missing when another key is touched, or none. -/
theorem missing_snoc {x : Call K V} {k : K} {t : Nat} (hx : x.touched ≠ some k)
    (hm : (∃ d, p.ttl = some d ∧ ∃ y ∈ h, t + d < y.now) ∨ p.size ≤ (others h k).length) :
    (∃ d, p.ttl = some d ∧ ∃ y ∈ h ++ [x], t + d < y.now) ∨ p.size ≤ (others (h ++ [x]) k).length := by
  rcases hm with ⟨d, hd, y, hy, hlt⟩ | hle
  · exact .inl ⟨d, hd, y, List.mem_append_left _ hy, hlt⟩
  · refine .inr (Nat.le_trans hle ?_)
    cases ht : x.touched with
    | none => exact Nat.le_of_eq (congrArg _ (others_untouched ht k).symm)
    | some k' =>
        have hne : k' ≠ k := fun heq => hx (heq ▸ ht)
        rw [others_touched ht, if_neg hne]
        exact List.length_le_length_insert

theorem Ordered.untouched {x : Call K V} (ho : Ordered h l) (hx : x.touched = none) : Ordered (h ++ [x]) l :=
  ho.imp fun hmem => by rwa [others_untouched hx]

theorem Faithful.set (hf : Faithful p h l) (hpos : 0 < p.size) (hn : (l.map Entry.key).Nodup) (value : V) :
    Faithful p (h ++ [⟨now, .set key value, none⟩]) (p.call l now (.set key value)).1 := by
  obtain ⟨en, hen⟩ : ∃ en : Entry K V, en = ⟨key, value, (p.ttl.map (now + ·)).getD 0⟩ := ⟨_, rfl⟩
  have hk : en.key = key := by rw [hen]
  have htouch : (⟨now, .set key value, none⟩ : Call K V).touched = some en.key := by rw [hk]; rfl
  have horder := hf.order.promote htouch
  have hkeys : ((promote en l).map Entry.key).Nodup := by
    refine List.nodup_cons.mpr ⟨?_, hn.sublist (List.filter_sublist.map _)⟩
    rw [List.mem_map]
    rintro ⟨en', hmem, heq⟩
    exact (mem_dropKey.mp hmem).2 heq
  rw [Policy.call, ← hen]
  refine ⟨fun en' hmem => ?_, horder.sublist (List.take_sublist _ _), fun k v t hw => ?_⟩
  · rcases List.mem_cons.mp (List.mem_of_mem_take hmem) with rfl | hmem
    · exact ⟨now, by rw [written_set, if_pos hk.symm, hen], by rw [hen]⟩
    · obtain ⟨hl, hne⟩ := mem_dropKey.mp hmem
      rw [hk] at hne
      obtain ⟨t, hw, he⟩ := hf.source en' hl
      exact ⟨t, by rw [written_set, if_neg hne.symm, hw], he⟩
  · by_cases heq : key = k
    · refine .inl ⟨en, ?_, hk.trans heq⟩
      rw [promote, List.take_cons hpos]
      exact List.mem_cons_self
    · rw [written_set, if_neg heq] at hw
      rcases hf.kept k v t hw with hpres | hmiss
      · -- the entry is among the first `size` ones, or it is evicted now
        obtain ⟨en', hmem, rfl⟩ := exists_promote en hpres
        rw [← List.take_append_drop p.size (promote en l), List.mem_append] at hmem
        rcases hmem with hmem | hmem
        · exact .inl ⟨en', hmem, rfl⟩
        · exact .inr (.inr (horder.le_others hkeys hmem))
      · exact .inr (missing_snoc (by rw [htouch, hk]; exact fun h => heq (Option.some.inj h)) hmiss)

/-- `Get` on a key without an entry. -/
theorem Faithful.miss (hf : Faithful p h l) : Faithful p (h ++ [⟨now, .get key, none⟩]) l := by
  refine ⟨fun en' hmem => ?_, hf.order.untouched rfl, fun k v t hw => ?_⟩
  · simpa only [written_get] using hf.source en' hmem
  · rw [written_get] at hw
    exact (hf.kept k v t hw).imp_right (missing_snoc (touched_ne rfl k))

/-- `Get` removes the entry of the key because its time is over. -/
theorem Faithful.expire (hf : Faithful p h l) (hmem : en ∈ l) (hstale : p.stale now en = true) :
    Faithful p (h ++ [⟨now, .get en.key, none⟩]) (dropKey en.key l) := by
  refine ⟨fun en' hmem' => ?_, (hf.order.sublist List.filter_sublist).untouched rfl, fun k v t hw => ?_⟩
  · simpa only [written_get] using hf.source en' (mem_dropKey.mp hmem').1
  · rw [written_get] at hw
    by_cases heq : k = en.key
    · obtain ⟨t', hw', he⟩ := hf.source en hmem
      rw [← heq] at hw'
      cases hw.symm.trans hw'
      simp only [Policy.stale, Bool.and_eq_true, decide_eq_true_eq] at hstale
      obtain ⟨d, hd⟩ := Option.isSome_iff_exists.mp hstale.1
      rw [he, hd] at hstale
      exact .inr (.inl ⟨d, hd, _, List.mem_append_right _ List.mem_cons_self, hstale.2⟩)
    · refine (hf.kept k v t hw).imp ?_ (missing_snoc (touched_ne rfl k))
      rintro ⟨en', hmem', rfl⟩
      exact ⟨en', mem_dropKey.mpr ⟨hmem', heq⟩, rfl⟩

/-- `Get` moves the entry of the key to the front. -/
theorem Faithful.hit (hf : Faithful p h l) (hmem : en ∈ l) :
    Faithful p (h ++ [⟨now, .get en.key, some en.value⟩]) (promote en l) := by
  have htouch : (⟨now, .get en.key, some en.value⟩ : Call K V).touched = some en.key := rfl
  refine ⟨fun en' hmem' => ?_, hf.order.promote htouch, fun k v t hw => ?_⟩
  · have hl : en' ∈ l := by
      rcases List.mem_cons.mp hmem' with rfl | hmem'
      · exact hmem
      · exact (mem_dropKey.mp hmem').1
    simpa only [written_get] using hf.source en' hl
  · rw [written_get] at hw
    by_cases heq : en.key = k
    · exact .inl ⟨en, List.mem_cons_self, heq⟩
    · refine (hf.kept k v t hw).imp (exists_promote en) (missing_snoc ?_)
      rw [htouch]
      exact fun h => heq (Option.some.inj h)

theorem Faithful.get (hf : Faithful p h l) :
    Faithful p (h ++ [⟨now, .get key, (p.call l now (.get key)).2⟩]) (p.call l now (.get key)).1 := by
  rw [Policy.call]
  split
  · exact hf.miss
  · rename_i en hl
    have hmem : en ∈ l := List.mem_of_find?_eq_some hl
    obtain rfl : en.key = key := by simpa using List.find?_some hl
    split
    · exact hf.expire hmem ‹_›
    · exact hf.hit hmem

theorem Faithful.delete (hf : Faithful p h l) : Faithful p (h ++ [⟨now, .delete key, none⟩]) (dropKey key l) := by
  refine ⟨fun en hmem => ?_, (hf.order.sublist List.filter_sublist).untouched rfl, fun k v t hw => ?_⟩
  · obtain ⟨hl, hne⟩ := mem_dropKey.mp hmem
    simpa only [written_delete, if_neg hne.symm] using hf.source en hl
  · rw [written_delete] at hw
    split at hw
    · cases hw
    · rename_i hne
      refine (hf.kept k v t hw).imp ?_ (missing_snoc (touched_ne rfl k))
      rintro ⟨en, hmem, rfl⟩
      exact ⟨en, mem_dropKey.mpr ⟨hmem, Ne.symm hne⟩, rfl⟩

theorem Faithful.clear : Faithful p (h ++ [⟨now, .clear, none⟩]) [] := by
  refine ⟨nofun, List.Pairwise.nil, fun k v t hw => ?_⟩
  rw [written_clear] at hw
  cases hw

theorem Faithful.call (hf : Faithful p h l) (hpos : 0 < p.size) (hn : (l.map Entry.key).Nodup) (op : Op K V) :
    Faithful p (h ++ [⟨now, op, (p.call l now op).2⟩]) (p.call l now op).1 := by
  cases op with
  | set key value => exact hf.set hpos hn value
  | get key => exact hf.get
  | delete key => exact hf.delete
  | clear => exact .clear

/-! ## Answers -/

omit [DecidableEq K] in
/-- An entry that was written at `t` is not stale exactly as long as its time to live is not over. -/
theorem stale_eq_false {size t : Nat} {ttl : Int}
    (he : en.expireAt = ((if 0 < ttl then some ttl.toNat else none).map (t + ·)).getD 0) :
    Policy.stale ⟨size, if 0 < ttl then some ttl.toNat else none⟩ now en = false ↔ ttl ≤ 0 ∨ (now : Int) ≤ t + ttl := by
  by_cases ht : 0 < ttl
  · simp only [ht, ↓reduceIte, Option.map_some, Option.getD_some] at he
    simp only [Policy.stale, ht, ↓reduceIte, Option.isSome_some, Bool.true_and, decide_eq_false_iff_not]
    omega
  · simp [Policy.stale, ht, Int.not_lt.mp ht]

/-- `Get` answers with the value of a live entry. -/
theorem Policy.get_eq_some (hn : (l.map Entry.key).Nodup) {v : V} : (p.call l now (.get key)).2 = some v ↔
    ∃ en ∈ l, en.key = key ∧ en.value = v ∧ p.stale now en = false := by
  constructor
  · intro h
    rw [Policy.call] at h
    split at h
    · cases h
    · rename_i en hl
      obtain ⟨hmem, hk⟩ := (lookup_eq_some hn).mp hl
      split at h
      · cases h
      · rename_i hs
        exact ⟨en, hmem, hk, Option.some.inj h, by simpa using hs⟩
  · rintro ⟨en, hmem, hk, rfl, hs⟩
    simp only [Policy.call, (lookup_eq_some hn).mpr ⟨hmem, hk⟩, hs, Bool.false_eq_true, ↓reduceIte]

theorem Faithful.run {c : Cache K V} {capacity ttl : Int} (hr : Lts.Run Step (Cache.new capacity ttl) h c) :
    Faithful (Cache.new capacity ttl : Cache K V).policy h c.entries := by
  have hpos : 0 < (Cache.new capacity ttl : Cache K V).policy.size := by
    rw [policy_new]
    dsimp only
    omega
  have hI := hr.invariant (I := fun h c => Reached (Cache.new capacity ttl : Cache K V).policy c ∧
    Faithful (Cache.new capacity ttl : Cache K V).policy h c.entries)
  refine (hI ⟨⟨.new capacity ttl, rfl, Nat.zero_le _⟩, nofun, List.Pairwise.nil, nofun⟩ ?_).2
  rintro h₁ c₁ evs c₂ ⟨hc, hf⟩ hs
  cases hs with
  | L_Call now op =>
      obtain ⟨hc', hentries, hans⟩ := hc.call hpos now op
      refine ⟨hc', ?_⟩
      rw [hentries, hans]
      exact hf.call hpos hc.consistent.keys_nodup op

end Gopkg.Lru
