import Gopkg.Lru.Lemmas.History

/-!
# Theorems about the LRU cache
-/

namespace Gopkg.Lru

open Lts

variable {K V : Type} [DecidableEq K]

/-- In every state that calls lead to, at whatever clock readings: the key of each element of the list maps to
that element, no key occurs twice, the map has no other elements, and there are at most `capacity` of them. -/
theorem map_and_list_agree (capacity ttl : Int) (t : List (Call K V)) (c : Cache K V)
    (hr : Run Step (Cache.new capacity ttl) t c) :
    (∀ el ∈ c.ll, ∃ en, c.heap el = some en ∧ c.items en.key = some el) ∧
      (c.entries.map Entry.key).Nodup ∧ c.entries.length = c.len ∧
      (∀ key el, c.items key = some el → el ∈ c.ll ∧ ∃ en, c.heap el = some en ∧ en.key = key) ∧
      (c.len : Int) ≤ max 1 capacity := by
  have h := Reached.run hr
  have hc := h.consistent
  refine ⟨hc.element, hc.keys_nodup, hc.length_entries, hc.item, ?_⟩
  have hsize := h.size
  rw [policy_new] at hsize
  dsimp only at hsize
  omega

/-- A cache for one entry, after two keys. -/
theorem map_and_list_agree_evicted : ∃ (t : List (Call String Nat)) (c : Cache String Nat),
    Run Step (Cache.new 0 0) t c ∧ c.items "a" = none ∧ c.entries = [⟨"b", 2, 0⟩] ∧
      (c.entries.map Entry.key).Nodup ∧ (c.len : Int) ≤ max 1 0 := by
  have h₁ : Run Step (Cache.new 0 0 : Cache String Nat) _ _ := .single (.L_Call 7 (.set "a" 1))
  have h₂ := h₁.snoc (.L_Call 5 (.set "b" 2))
  obtain ⟨_, hkeys, _, _, hlen⟩ := map_and_list_agree 0 0 _ _ h₂
  exact ⟨_, _, h₂, by decide, by decide, hkeys, hlen⟩

/-- With a clock that does not go back: what `Get` returns is the live value that the history has for the key,
and a live value is returned as long as fewer than `capacity` other keys have been touched since the key was. -/
theorem get_answers (capacity ttl : Int) (h : List (Call K V)) (c : Cache K V)
    (hr : Run Step (Cache.new capacity ttl) h c) (now : Nat)
    (hclock : (h.map Call.now ++ [now]).Pairwise (· ≤ ·)) (key : K) (v : V) :
    ((c.get now key).2 = some v → Live ttl h now key v) ∧
      (Live ttl h now key v → ((others h key).length : Int) < max 1 capacity → (c.get now key).2 = some v) := by
  have hreach := Reached.run hr
  have hf := Faithful.run hr
  have hn := hreach.consistent.keys_nodup
  have hget := (hreach.consistent.get now key).2
  rw [hreach.policy] at hget
  rw [policy_new] at hget hf
  rw [hget, Policy.get_eq_some hn]
  constructor
  · rintro ⟨en, hmem, rfl, rfl, hs⟩
    obtain ⟨t, hw, he⟩ := hf.source en hmem
    exact ⟨t, hw, (stale_eq_false he).mp hs⟩
  · rintro ⟨t, hw, hlive⟩ hfew
    rcases hf.kept key v t hw with ⟨en, hmem, hk⟩ | ⟨d, hd, x, hx, hlt⟩ | hle
    · obtain ⟨t', hw', he⟩ := hf.source en hmem
      rw [hk] at hw'
      cases hw.symm.trans hw'
      exact ⟨en, hmem, hk, rfl, (stale_eq_false he).mpr hlive⟩
    · -- the entry expired at an earlier call, so it has expired now
      have hle : x.now ≤ now :=
        (List.pairwise_append.mp hclock).2.2 x.now (List.mem_map_of_mem hx) now List.mem_cons_self
      split at hd
      · cases hd
        omega
      · cases hd
    · dsimp only at hle
      omega

/-- The older of two entries, at the last moment of its time to live. -/
theorem get_answers_last_moment : ∃ (h : List (Call String Nat)) (c : Cache String Nat),
    Run Step (Cache.new 2 10) h c ∧ Live 10 h 13 "a" 1 ∧ (c.get 13 "a").2 = some 1 := by
  have h₁ : Run Step (Cache.new 2 10 : Cache String Nat) _ _ := .single (.L_Call 3 (.set "a" 1))
  have h₂ := h₁.snoc (.L_Call 4 (.set "b" 2))
  have hget := get_answers 2 10 _ _ h₂ 13 (by decide) "a" 1
  have hlive : Live 10 [⟨3, .set "a" 1, none⟩, ⟨4, .set "b" 2, none⟩] 13 "a" 1 :=
    ⟨3, by decide, .inr (by decide)⟩
  exact ⟨_, _, h₂, hlive, hget.2 hlive (by decide)⟩

end Gopkg.Lru
