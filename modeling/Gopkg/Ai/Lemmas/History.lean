import Mathlib.Data.List.Nodup
import Gopkg.Lts.Slots
import Gopkg.Ai.Conversation

/-!
# What the history holds

Where every `SET` finds what its `GET` found, the key holds the last messages that were stored.
-/

namespace Gopkg.Ai.Conversation

open Lts

variable {A Data : Type} {c : Codec A Data} {w w' : World A Data} {t evs : List (Event A)} {msgs : List (Message A)}
  {msg m : Message A} {data : Data} {now : Int} {i j : Nat}

/-! ## The window -/

theorem window_eq_drop (msgs : List (Message A)) : window msgs = msgs.drop (msgs.length - conversationMaxItems) := by
  unfold window
  split
  · rfl
  · rw [show msgs.length - conversationMaxItems = 0 by omega, List.drop_zero]

theorem length_window (msgs : List (Message A)) : (window msgs).length = min conversationMaxItems msgs.length := by
  rw [window_eq_drop, List.length_drop]
  omega

/-- A message that leaves the window does not come back. -/
theorem window_window_snoc (msgs : List (Message A)) (m : Message A) :
    window (window msgs ++ [m]) = window (msgs ++ [m]) := by
  have hlen := length_window msgs
  rw [window_eq_drop (window msgs ++ [m]), window_eq_drop (msgs ++ [m]), List.length_append, hlen, List.length_append,
    List.length_singleton, window_eq_drop msgs]
  have hpos : 0 < conversationMaxItems := by decide
  have hle : msgs.length + 1 - conversationMaxItems ≤ msgs.length := by omega
  rw [List.drop_append_of_le_length (by rw [List.length_drop]; omega), List.drop_append_of_le_length hle,
    List.drop_drop]
  congr 2
  omega

/-! ## `GET` and `SET` -/

theorem Codec.get_of_marshal (h : c.marshal msgs = .ok data) : c.get (.ok (some data)) = .ok msgs := by
  simp only [Codec.get, c.unmarshal_marshal h, Except.mapError]

theorem of_mapError_eq_ok {α ε ε' : Type} {x : Except ε α} {f : ε → ε'} {a : α} (h : x.mapError f = .ok a) :
    x = .ok a := by
  cases x with
  | error err => cases h
  | ok b =>
      cases h
      rfl

/-- What a call is about to store. -/
theorem Codec.prepare_ok {reply : Except String (Option Data)} (h : c.prepare reply now msg = .ok data) :
    ∃ msgs, c.get reply = .ok msgs ∧ c.marshal (window (msgs ++ [msg.stamped now])) = .ok data := by
  unfold Codec.prepare at h
  cases hget : c.get reply with
  | error err =>
      rw [hget] at h
      cases h
  | ok msgs =>
      rw [hget] at h
      exact ⟨msgs, rfl, of_mapError_eq_ok h⟩

/-! ## Histories -/

@[simp] theorem stored_append (t evs : List (Event A)) : stored (t ++ evs) = stored t ++ stored evs :=
  List.filterMap_append

/-- Two events in order, the later of which is not new. -/
theorem pair_sublist_of_not_mem {a b : Event A} (h : [a, b].Sublist (t ++ evs)) (hb : b ∉ evs) :
    [a, b].Sublist t := by
  obtain ⟨l₁, l₂, heq, h₁, h₂⟩ := List.sublist_append_iff.mp h
  rcases List.eq_nil_or_concat l₂ with rfl | ⟨l₂, x, rfl⟩
  · rw [List.append_nil] at heq
    rwa [heq]
  · have hx : b = x := by
      have := congrArg List.getLast? heq
      simpa using this
    exact absurd (h₂.subset (by simp [hx])) hb

/-- The message is that of a call, but for the time if it had none. -/
def Gives (t : List (Event A)) (i : Nat) (m : Message A) : Prop :=
  ∃ msg time, .invoked i msg ∈ t ∧ m = { msg with timestamp := some time } ∧ ∀ given ∈ msg.timestamp, time = given

theorem gives_stamped {msg : Message A} (now : Int) (h : .invoked i msg ∈ t) : Gives t i (msg.stamped now) := by
  cases hgiven : msg.timestamp with
  | none => exact ⟨msg, now, h, if_pos (by rw [hgiven]; rfl), by simp [hgiven]⟩
  | some given =>
      refine ⟨msg, given, h, ?_, by simp [hgiven]⟩
      rw [Message.stamped, if_neg (by simp [hgiven]), ← hgiven]

theorem Gives.append (h : Gives t i m) (evs : List (Event A)) : Gives (t ++ evs) i m := by
  obtain ⟨msg, time, hmem, hm⟩ := h
  exact ⟨msg, time, List.mem_append_left evs hmem, hm⟩

/-- What is known of a call at its place. -/
def Tracked (c : Codec A Data) (t : List (Event A)) (i : Nat) : Place A Data → Prop
  | .getting msg => .invoked i msg ∈ t ∧ i ∉ (stored t).map Prod.fst
  | .setting read m data => Gives t i m ∧ i ∉ (stored t).map Prod.fst ∧
      ∃ msgs, c.get (.ok read) = .ok msgs ∧ c.marshal (window (msgs ++ [m])) = .ok data
  | .returned err => err = none → i ∈ (stored t).map Prod.fst

theorem Tracked.append {p : Place A Data} (h : Tracked c t i p) (hi : i ∉ (stored evs).map Prod.fst) :
    Tracked c (t ++ evs) i p := by
  have hnot (hi' : i ∉ (stored t).map Prod.fst) : i ∉ (stored (t ++ evs)).map Prod.fst := by
    rw [stored_append, List.map_append, List.mem_append]
    exact not_or.mpr ⟨hi', hi⟩
  cases p with
  | getting msg => exact ⟨List.mem_append_left evs h.1, hnot h.2⟩
  | setting read m data => exact ⟨h.1.append evs, hnot h.2.1, h.2.2⟩
  | returned err =>
      intro herr
      rw [stored_append, List.map_append]
      exact List.mem_append_left _ (h herr)

/-- The history so far: the key holds the last of the messages that were stored, in the order of their `SET`s, which
no two calls that do not overlap contradict. -/
structure Recorded (c : Codec A Data) (t : List (Event A)) (w : World A Data) : Prop where
  holds : c.get (.ok w.store) = .ok (window ((stored t).map Prod.snd))
  nodup : ((stored t).map Prod.fst).Nodup
  gives : ∀ p ∈ stored t, Gives t p.1 p.2
  invoked : ∀ i msg, .invoked i msg ∈ t → i < w.calls.length
  tracked : ∀ i p, w.calls[i]? = some p → Tracked c t i p
  returned : ∀ i, .returned i none ∈ t → i ∈ (stored t).map Prod.fst
  ordered : ∀ i j msg, [.returned i none, .invoked j msg].Sublist t → j ∈ (stored t).map Prod.fst →
    [i, j].Sublist ((stored t).map Prod.fst)

theorem Recorded.issued (h : Recorded c t w) (hi : i ∈ (stored t).map Prod.fst) : i < w.calls.length := by
  obtain ⟨p, hp, rfl⟩ := List.mem_map.mp hi
  obtain ⟨msg, _, hmem, _⟩ := h.gives p hp
  exact h.invoked p.1 msg hmem

theorem Recorded.init : Recorded c [] World.init where
  holds := rfl
  nodup := .nil
  gives _ h := nomatch h
  invoked _ _ h := nomatch h
  tracked _ _ h := nomatch h
  returned _ h := nomatch h
  ordered _ _ _ _ h := nomatch h

/-- A step that stores nothing. -/
theorem Recorded.quiet (h : Recorded c t w) (hstored : stored evs = []) (hstore : w'.store = w.store)
    (hlen : w.calls.length ≤ w'.calls.length) (htracked : ∀ i p, w'.calls[i]? = some p → Tracked c (t ++ evs) i p)
    (hreturned : ∀ i, .returned i none ∉ evs)
    (hinvoked : ∀ i msg, .invoked i msg ∈ evs → w.calls.length ≤ i ∧ i < w'.calls.length) :
    Recorded c (t ++ evs) w' := by
  have heq : stored (t ++ evs) = stored t := by rw [stored_append, hstored, List.append_nil]
  refine ⟨?_, ?_, ?_, ?_, htracked, ?_, ?_⟩
  · rw [heq, hstore]
    exact h.holds
  · rw [heq]
    exact h.nodup
  · rw [heq]
    exact fun p hp => (h.gives p hp).append evs
  · intro i msg hi
    rcases List.mem_append.mp hi with hi | hi
    · exact Nat.lt_of_lt_of_le (h.invoked i msg hi) hlen
    · exact (hinvoked i msg hi).2
  · intro i hi
    rw [heq]
    exact h.returned i ((List.mem_append.mp hi).resolve_right (hreturned i))
  · intro i j msg hsub hj
    rw [heq] at hj ⊢
    refine h.ordered i j msg (pair_sublist_of_not_mem hsub fun hnew => ?_) hj
    exact absurd (h.issued hj) (Nat.not_lt.mpr (hinvoked j msg hnew).1)

/-- A call stores its message while the key holds what it found. -/
theorem Recorded.store (h : Recorded c t w) {err : Option String}
    (hi : w.calls[i]? = some (.setting w.store m data)) (hstored : stored evs = [(i, m)])
    (hreturned : ∀ j, .returned j none ∈ evs → j = i) (hinvoked : ∀ j msg, .invoked j msg ∉ evs) :
    Recorded c (t ++ evs) { store := some data, calls := w.calls.set i (.returned err) } := by
  obtain ⟨hgives, hnew, msgs, hget, hmarshal⟩ := h.tracked i _ hi
  obtain rfl : window ((stored t).map Prod.snd) = msgs := Except.ok.inj (h.holds.symm.trans hget)
  have heq : stored (t ++ evs) = stored t ++ [(i, m)] := by rw [stored_append, hstored]
  have hids : (stored (t ++ evs)).map Prod.fst = (stored t).map Prod.fst ++ [i] := by rw [heq, List.map_append]; rfl
  refine ⟨?_, ?_, ?_, ?_, ?_, ?_, ?_⟩
  · rw [Codec.get_of_marshal hmarshal, heq, List.map_append, window_window_snoc]
    rfl
  · rw [hids]
    exact List.nodup_append.mpr ⟨h.nodup, List.nodup_singleton i, fun j hj k hk hjk =>
      hnew (List.mem_singleton.mp hk ▸ hjk ▸ hj)⟩
  · rw [heq]
    intro p hp
    rcases List.mem_append.mp hp with hp | hp
    · exact (h.gives p hp).append evs
    · obtain rfl := List.mem_singleton.mp hp
      exact hgives.append evs
  · intro j msg hj
    rw [List.length_set]
    exact h.invoked j msg ((List.mem_append.mp hj).resolve_right (hinvoked j msg))
  · intro j p hp
    rcases getElem?_set_cases hi hp with ⟨rfl, rfl⟩ | ⟨hji, hp⟩
    · intro _
      rw [hids]
      exact List.mem_append_right _ List.mem_cons_self
    · exact (h.tracked j p hp).append (by simpa [hstored] using hji)
  · intro j hj
    rw [hids, List.mem_append]
    exact (List.mem_append.mp hj).imp (h.returned j) fun hj => List.mem_singleton.mpr (hreturned j hj)
  · intro j k msg hsub hk
    have hsub' := pair_sublist_of_not_mem hsub (hinvoked k msg)
    rw [hids] at hk ⊢
    rcases List.mem_append.mp hk with hk | hk
    · exact (h.ordered j k msg hsub' hk).trans (List.sublist_append_left _ _)
    · rw [List.mem_singleton.mp hk]
      exact (List.singleton_sublist.mpr (h.returned j (hsub'.subset List.mem_cons_self))).append (.refl [i])

/-- A call moves on, and nothing is stored. -/
theorem Recorded.move (h : Recorded c t w) {p q : Place A Data} (hi : w.calls[i]? = some p) (hstored : stored evs = [])
    (hq : Tracked c (t ++ evs) i q) (hreturned : ∀ i, .returned i none ∉ evs)
    (hinvoked : ∀ i msg, .invoked i msg ∉ evs) :
    Recorded c (t ++ evs) { w with calls := w.calls.set i q } := by
  refine h.quiet hstored rfl (Nat.le_of_eq List.length_set.symm) (fun j r hr => ?_) hreturned fun j msg hj =>
    absurd hj (hinvoked j msg)
  rcases getElem?_set_cases hi hr with ⟨rfl, rfl⟩ | ⟨_, hr⟩
  · exact hq
  · exact (h.tracked j r hr).append (by simp [hstored])

theorem Recorded.step (h : Recorded c t w) (hs : Restrict (Step c) Current w evs w') : Recorded c (t ++ evs) w' := by
  obtain ⟨hs, hcurrent⟩ := hs
  cases hs with
  | C_Append msg =>
      have hfresh : w.calls.length ∉ (stored t).map Prod.fst := fun hi => Nat.lt_irrefl _ (h.issued hi)
      refine h.quiet rfl rfl (by simp) (fun i p hp => ?_) (by simp) (by simp)
      rcases getElem?_snoc_cases hp with ⟨rfl, rfl⟩ | hp
      · refine ⟨List.mem_append_right t List.mem_cons_self, ?_⟩
        rw [stored_append]
        simpa [stored] using hfresh
      · exact (h.tracked i p hp).append List.not_mem_nil
  | C_Get now hi hprep =>
      obtain ⟨hinv, hnew⟩ := h.tracked _ _ hi
      obtain ⟨msgs, hget, hmarshal⟩ := Codec.prepare_ok hprep
      refine h.move hi rfl ?_ (by simp) (by simp)
      rw [List.append_nil]
      exact ⟨gives_stamped now hinv, hnew, msgs, hget, hmarshal⟩
  | C_GetFailed now hi _ _ => exact h.move hi rfl nofun (by simp) (by simp)
  | C_Set hi =>
      obtain ⟨data, hi'⟩ := hcurrent _ _ List.mem_cons_self
      cases hi.symm.trans hi'
      exact h.store hi' rfl (by simp) (by simp)
  | C_SetFailed err done hi =>
      cases done with
      | false => exact h.move hi rfl nofun (by simp) (by simp)
      | true =>
          obtain ⟨data, hi'⟩ := hcurrent _ _ List.mem_cons_self
          cases hi.symm.trans hi'
          exact h.store hi' rfl (by simp) (by simp)

theorem Recorded.run (hr : Run (Restrict (Step c) Current) World.init t w) : Recorded c t w :=
  hr.invariant .init fun _ _ _ _ h hs => h.step hs

/-- When every call has returned without an error, each has stored its message. -/
theorem Recorded.perm (h : Recorded c t w) (hdone : ∀ p ∈ w.calls, p = .returned none) :
    ((stored t).map Prod.fst).Perm (List.range w.calls.length) := by
  refine (List.perm_ext_iff_of_nodup h.nodup List.nodup_range).mpr fun i => ?_
  rw [List.mem_range]
  refine ⟨h.issued, fun hi => ?_⟩
  have hp := List.getElem?_eq_getElem hi
  have htracked := h.tracked i _ hp
  rw [hdone _ (List.getElem_mem hi)] at htracked
  exact htracked rfl

end Gopkg.Ai.Conversation
