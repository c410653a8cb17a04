import Gopkg.Ai.Lemmas.History

/-!
# What is read of the history

However the calls overlap, a `SET` writes what its `GET` found, and then its own message.
-/

namespace Gopkg.Ai.Conversation

open Lts

variable {A Data : Type} {c : Codec A Data} {w w' : World A Data} {t evs : List (Event A)} {m : Message A} {data : Data}
  {read : Option Data} {i : Nat}

/-! ## Selections -/

/-- The value is made of messages that were stored, in their order. -/
def Selects (c : Codec A Data) (t : List (Event A)) (value : Option Data) (kept : List (Nat × Message A)) : Prop :=
  c.get (.ok value) = .ok (kept.map Prod.snd) ∧ kept.Sublist (stored t)

/-- The last `n` of the messages. -/
theorem lasts_of_drop {α : Type} (l : List α) {k : Nat} (hk : l ≠ [] → k < l.length) :
    (l.drop k).Sublist l ∧ (l.drop k).getLast? = l.getLast? := by
  refine ⟨List.drop_sublist k l, ?_⟩
  cases l with
  | nil => simp
  | cons x l =>
      rw [List.getLast?_drop, if_neg]
      exact Nat.not_le.mpr (hk (List.cons_ne_nil x l))

structure Selected (c : Codec A Data) (t : List (Event A)) (w : World A Data) : Prop where
  holds : ∃ kept, Selects c t w.store kept ∧ kept.length ≤ conversationMaxItems ∧
    (kept ≠ [] → kept.getLast? = (stored t).getLast?)
  found : ∀ (i : Nat) (read : Option Data) m data, w.calls[i]? = some (.setting read m data) →
    ∃ kept, Selects c t read kept
  nodup : ((stored t).map Prod.fst).Nodup
  gives : ∀ p ∈ stored t, Gives t p.1 p.2
  issued : ∀ i ∈ (stored t).map Prod.fst, i < w.calls.length
  tracked : ∀ i p, w.calls[i]? = some p → Tracked c t i p

theorem Selected.init : Selected c [] World.init where
  holds := ⟨[], ⟨rfl, .slnil⟩, Nat.zero_le _, by simp⟩
  found _ _ _ _ h := nomatch h
  nodup := .nil
  gives _ h := nomatch h
  issued _ h := nomatch h
  tracked _ _ h := nomatch h

/-- A step that stores nothing. The key may go. -/
theorem Selected.quiet (h : Selected c t w) (hstored : stored evs = []) (hstore : w'.store = w.store ∨ w'.store = none)
    (hlen : w.calls.length ≤ w'.calls.length)
    (hfound : ∀ (i : Nat) (read : Option Data) m data, w'.calls[i]? = some (.setting read m data) →
      ∃ kept, Selects c t read kept)
    (htracked : ∀ i p, w'.calls[i]? = some p → Tracked c (t ++ evs) i p) : Selected c (t ++ evs) w' := by
  have heq : stored (t ++ evs) = stored t := by rw [stored_append, hstored, List.append_nil]
  have hselects : ∀ {value kept}, Selects c t value kept → Selects c (t ++ evs) value kept := by
    intro value kept hs
    rw [Selects, heq]
    exact hs
  refine ⟨?_, ?_, heq ▸ h.nodup, fun p hp => (h.gives p (heq ▸ hp)).append evs, ?_, htracked⟩
  · obtain ⟨kept, hs, hkept, hlast⟩ := h.holds
    rcases hstore with hstore | hstore
    · rw [hstore, heq]
      exact ⟨kept, hselects hs, hkept, hlast⟩
    · rw [hstore]
      exact ⟨[], ⟨rfl, List.nil_sublist _⟩, Nat.zero_le _, by simp⟩
  · intro i read m data hi
    obtain ⟨kept, hs⟩ := hfound i read m data hi
    exact ⟨kept, hselects hs⟩
  · rw [heq]
    exact fun i hi => Nat.lt_of_lt_of_le (h.issued i hi) hlen

/-- A call moves on, and nothing is stored. -/
theorem Selected.move (h : Selected c t w) {p q : Place A Data} (hi : w.calls[i]? = some p) (hstored : stored evs = [])
    (hq : Tracked c (t ++ evs) i q)
    (hfound : ∀ read m data, q = .setting read m data → ∃ kept, Selects c t read kept) :
    Selected c (t ++ evs) { w with calls := w.calls.set i q } := by
  refine h.quiet hstored (.inl rfl) (Nat.le_of_eq List.length_set.symm) (fun j read m data hj => ?_) fun j r hr => ?_
  · rcases getElem?_set_cases hi hj with ⟨_, hplace⟩ | ⟨_, hj⟩
    · exact hfound read m data hplace.symm
    · exact h.found j read m data hj
  · rcases getElem?_set_cases hi hr with ⟨rfl, rfl⟩ | ⟨_, hr⟩
    · exact hq
    · exact (h.tracked j r hr).append (by simp [hstored])

/-- A call stores its message after those that it found. -/
theorem Selected.store (h : Selected c t w) {err : Option String} (hi : w.calls[i]? = some (.setting read m data))
    (hstored : stored evs = [(i, m)]) :
    Selected c (t ++ evs) { store := some data, calls := w.calls.set i (.returned err) } := by
  obtain ⟨kept, hget, hkept⟩ := h.found i read m data hi
  obtain ⟨hgives, hnew, msgs, hget', hmarshal⟩ := h.tracked i _ hi
  obtain rfl : kept.map Prod.snd = msgs := Except.ok.inj (hget.symm.trans hget')
  have heq : stored (t ++ evs) = stored t ++ [(i, m)] := by rw [stored_append, hstored]
  have hids : (stored (t ++ evs)).map Prod.fst = (stored t).map Prod.fst ++ [i] := by rw [heq, List.map_append]; rfl
  refine ⟨?_, ?_, ?_, ?_, ?_, ?_⟩
  · -- the window is a suffix of what the call found with its own message
    let l := kept ++ [(i, m)]
    have hlength : l.length = kept.length + 1 := List.length_append
    have hk : l.length - conversationMaxItems < l.length := by
      have : 0 < conversationMaxItems := by decide
      omega
    obtain ⟨hsub, hlast⟩ := lasts_of_drop l fun _ => hk
    refine ⟨l.drop (l.length - conversationMaxItems), ⟨?_, ?_⟩, ?_, fun _ => ?_⟩
    · rw [Codec.get_of_marshal hmarshal, window_eq_drop, List.map_drop, List.map_append, List.length_append,
        List.length_map, hlength]
      rfl
    · rw [heq]
      exact hsub.trans (hkept.append (.refl _))
    · rw [List.length_drop]
      omega
    · rw [hlast, heq, List.getLast?_append_cons, List.getLast?_append_cons]
  · intro j read' m' data' hj
    rcases getElem?_set_cases hi hj with ⟨_, hj⟩ | ⟨_, hj⟩
    · cases hj
    · obtain ⟨kept', hget', hkept'⟩ := h.found j read' m' data' hj
      exact ⟨kept', hget', heq ▸ hkept'.trans (List.sublist_append_left _ _)⟩
  · rw [hids]
    exact List.nodup_append.mpr ⟨h.nodup, List.nodup_singleton i, fun j hj k hk hjk =>
      hnew (List.mem_singleton.mp hk ▸ hjk ▸ hj)⟩
  · rw [heq]
    intro p hp
    rcases List.mem_append.mp hp with hp | hp
    · exact (h.gives p hp).append evs
    · obtain rfl := List.mem_singleton.mp hp
      exact hgives.append evs
  · rw [hids]
    intro j hj
    rw [List.length_set]
    rcases List.mem_append.mp hj with hj | hj
    · exact h.issued j hj
    · rw [List.mem_singleton.mp hj]
      exact (List.getElem?_eq_some_iff.mp hi).1
  · intro j p hp
    rcases getElem?_set_cases hi hp with ⟨rfl, rfl⟩ | ⟨hji, hp⟩
    · intro _
      rw [hids]
      exact List.mem_append_right _ List.mem_cons_self
    · exact (h.tracked j p hp).append (by simpa [hstored] using hji)

/-! ## Steps -/

theorem Selected.appendStep (h : Selected c t w) (hs : Step c w evs w') : Selected c (t ++ evs) w' := by
  cases hs with
  | C_Append msg =>
      have hfresh : w.calls.length ∉ (stored t).map Prod.fst := fun hi => Nat.lt_irrefl _ (h.issued _ hi)
      refine h.quiet rfl (.inl rfl) (by simp) (fun i read m data hi => ?_) fun i p hp => ?_
      · rcases getElem?_snoc_cases hi with ⟨_, hi⟩ | hi
        · cases hi
        · exact h.found i read m data hi
      · rcases getElem?_snoc_cases hp with ⟨rfl, rfl⟩ | hp
        · refine ⟨List.mem_append_right t List.mem_cons_self, ?_⟩
          rw [stored_append]
          simpa [stored] using hfresh
        · exact (h.tracked i p hp).append List.not_mem_nil
  | C_Get now hi hprep =>
      obtain ⟨hinv, hnew⟩ := h.tracked _ _ hi
      obtain ⟨msgs, hget, hmarshal⟩ := Codec.prepare_ok hprep
      refine h.move hi rfl ?_ fun read m data hq => ?_
      · rw [List.append_nil]
        exact ⟨gives_stamped now hinv, hnew, msgs, hget, hmarshal⟩
      · cases hq
        obtain ⟨kept, hs, _⟩ := h.holds
        exact ⟨kept, hs⟩
  | C_GetFailed now hi _ _ => exact h.move hi rfl (by simp [Tracked]) (by simp)
  | C_Set hi => exact h.store hi rfl
  | C_SetFailed err done hi =>
      cases done with
      | false => exact h.move hi rfl (by simp [Tracked]) (by simp)
      | true => exact h.store hi rfl

theorem Selected.step (h : Selected c t w) (hs : KeyStep c w evs w') : Selected c (t ++ evs) w' := by
  cases hs with
  | append hs => exact h.appendStep hs
  | K_Gone =>
      refine h.quiet rfl (.inr rfl) (Nat.le_refl _) h.found fun i p hp => ?_
      rw [List.append_nil]
      exact h.tracked i p hp

theorem Selected.run (hr : Run (KeyStep c) World.init t w) : Selected c t w :=
  hr.invariant .init fun _ _ _ _ h hs => h.step hs

/-- `Recent` returns the end of what `Get` returns. -/
theorem recent_of_get {reply : Except String (Option Data)} {kept : List (Nat × Message A)}
    (h : c.get reply = .ok (kept.map Prod.snd)) (n : Int) : ∃ k, (kept ≠ [] → k < kept.length) ∧
      c.recent n reply = .ok ((kept.drop k).map Prod.snd) ∧ (n ≤ 0 → k = 0) ∧ (0 < n → kept.length - k ≤ n) := by
  have hlength : (kept.map Prod.snd).length = kept.length := List.length_map _
  by_cases hn : n ≤ 0 ∨ ((kept.map Prod.snd).length : Int) ≤ n
  · refine ⟨0, List.length_pos_iff.mpr, ?_, fun _ => rfl, ?_⟩
    · simp only [Codec.recent, h, List.drop_zero]
      exact if_pos hn
    · omega
  · refine ⟨kept.length - n.toNat, fun hne => ?_, ?_, fun hle => absurd (.inl hle) hn, ?_⟩
    · have := List.length_pos_iff.mpr hne
      omega
    · simp only [Codec.recent, h, List.map_drop]
      rw [← hlength]
      exact if_neg hn
    · omega

end Gopkg.Ai.Conversation
