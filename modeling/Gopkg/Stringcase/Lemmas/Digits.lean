import Gopkg.Stringcase.Lemmas.Positions

/-!
# Letters after digits

A letter follows a digit in a word where it does so in the string, or where only characters that are dropped stand
between them. A capital right after a digit starts a word of its own.
-/

namespace Gopkg.Stringcase

variable {u : Unicode} {st : Scan} {a c : Char} {s : List Char}

/-- The character is no part of a word, and does not end one either. -/
def dropped (c : Char) : Bool := !c.isAlphanum && !isSeparator c

/-- Somewhere in the string a letter follows a digit in one word. -/
def LetterAfterDigit (s : List Char) : Prop :=
  ∃ a mid b, a :: (mid ++ [b]) <:+: s ∧ a.isDigit ∧ (∀ c ∈ mid, dropped c) ∧ (b.isLower ∨ b.isUpper ∧ mid ≠ [])

/-! ## The end of the string -/

/-- The last character that is not dropped. -/
def trail (s : List Char) : Option Char := s.reverse.find? fun c => !dropped c

theorem trail_concat (s : List Char) (c : Char) : trail (s ++ [c]) = if dropped c then trail s else some c := by
  rw [trail, List.reverse_append, List.reverse_singleton, List.singleton_append, List.find?_cons]
  cases dropped c <;> rfl

theorem trail_eq_some : trail s = some a ↔
    dropped a = false ∧ ∃ pre mid, s = pre ++ a :: mid ∧ ∀ c ∈ mid, dropped c := by
  rw [trail, List.find?_eq_some_iff_append, Bool.not_eq_true']
  refine and_congr_right fun _ => ?_
  constructor
  · rintro ⟨mid, pre, hs, hmid⟩
    refine ⟨pre.reverse, mid.reverse, ?_, by simpa using hmid⟩
    rw [← List.reverse_reverse s, hs]
    simp
  · rintro ⟨pre, mid, rfl, hmid⟩
    exact ⟨mid.reverse, pre.reverse, by simp, by simpa using hmid⟩

theorem not_dropped_of_class (hc : c.isUpper ∨ c.isLower ∨ c.isDigit) : dropped c = false := by
  rw [dropped, isAlphanum_iff.mpr hc]
  rfl

/-- A letter or digit that is added is the last character of a word. -/
theorem filter_trail_concat (hc : Alnum c) : (trail (s ++ [c])).filter (!isSeparator ·) = some c := by
  rw [trail_concat, not_dropped_of_class hc.2, if_neg Bool.false_ne_true, Option.filter_some, hc.not_separator]
  rfl

/-- A character that is added may be a letter after the last digit. -/
theorem letterAfterDigit_concat : LetterAfterDigit (s ++ [c]) ↔ LetterAfterDigit s ∨
    ∃ a ∈ trail s, a.isDigit ∧ (c.isLower ∨ c.isUpper ∧ s.getLast? ≠ some a) := by
  constructor
  · rintro ⟨a, mid, b, hinfix, ha, hmid, hb⟩
    rcases List.infix_concat_iff.mp hinfix with hsuffix | hinfix
    · obtain ⟨⟨pre, rfl⟩, rfl⟩ := suffix_of_concat (t := a :: mid) hsuffix
      have hkept := not_dropped_of_class (.inr (.inr ha))
      refine .inr ⟨a, trail_eq_some.mpr ⟨hkept, pre, mid, rfl, hmid⟩, ha,
        hb.imp_right fun ⟨hupper, hne⟩ => ⟨hupper, ?_⟩⟩
      intro hlast
      rw [List.getLast?_append_cons, List.getLast?_cons_of_ne_nil hne] at hlast
      exact absurd (hmid a (List.mem_of_getLast? hlast)) (by simp [hkept])
    · exact .inl ⟨a, mid, b, hinfix, ha, hmid, hb⟩
  · rintro (⟨a, mid, b, hinfix, hrest⟩ | ⟨a, htrail, ha, hc⟩)
    · exact ⟨a, mid, b, hinfix.trans (List.prefix_append s [c]).isInfix, hrest⟩
    · obtain ⟨_, pre, mid, rfl, hmid⟩ := trail_eq_some.mp htrail
      refine ⟨a, mid, c, ⟨pre, [], by simp⟩, ha, hmid, hc.imp_right fun ⟨hupper, hlast⟩ => ⟨hupper, ?_⟩⟩
      rintro rfl
      exact hlast (by simp)

/-! ## Words -/

/-- In no word so far does a letter follow a digit. -/
def Scan.AllLast (st : Scan) : Prop := (∀ w ∈ st.words, DigitsLast w) ∧ DigitsLast st.cur

theorem allLast_flush : st.flush.AllLast ↔ st.AllLast := by
  rw [Scan.flush]
  split
  · simp [Scan.AllLast, or_imp, forall_and, DigitsLast]
  · exact Iff.rfl

theorem flush_cur : st.flush.cur = [] := by
  rw [Scan.flush]
  split
  next => rfl
  next h => exact not_not.mp h

theorem allLast_append : Scan.AllLast { st with cur := st.cur ++ [c] } ↔
    st.AllLast ∧ ∀ a ∈ st.cur.getLast?, a.isDigit → c.isDigit := by
  simp [Scan.AllLast, DigitsLast, List.isChain_append, and_assoc]

/-- An acronym is cut between two capitals. -/
theorem allLast_acronym {next before : Char} {rest : List Char} (hcur : st.cur.reverse = next :: before :: rest)
    (hbefore : ¬ before.isDigit) (hnext : ¬ next.isDigit) :
    Scan.AllLast { st with words := st.words ++ [st.cur.dropLast], cur := [next, c] } ↔ st.AllLast := by
  have hsplit : st.cur = (rest.reverse ++ [before]) ++ [next] := by
    rw [← List.reverse_reverse st.cur, hcur]
    simp
  have hchain : DigitsLast st.cur ↔ DigitsLast st.cur.dropLast := by
    rw [hsplit, List.dropLast_concat, DigitsLast, List.isChain_append]
    simp [DigitsLast, hbefore]
  have hpair : DigitsLast [next, c] := by simp [DigitsLast, hnext]
  simp [Scan.AllLast, or_imp, forall_and, hchain, hpair]

/-! ## The scan -/

/-- The scan has read the string. -/
structure Followed (s : List Char) (st : Scan) : Prop where
  good : st.Good
  prev : st.prev = s.getLastD (Char.ofNat 0)
  last : st.cur.getLast? = (trail s).filter (!isSeparator ·)
  digits : st.AllLast ↔ ¬ LetterAfterDigit s

section Step

variable (h : Followed s st) (hs : ∀ c ∈ s, c.toNat < 128)

include h

/-- A digit is the last character of the word. -/
theorem Followed.digit (ha : a ∈ trail s) (hdigit : a.isDigit) : st.cur.getLast? = some a := by
  obtain ⟨_, pre, mid, rfl, _⟩ := trail_eq_some.mp ha
  have hsep : isSeparator a = false := by
    cases hsep : isSeparator a with
    | false => rfl
    | true =>
        simp only [isSeparator, Bool.or_eq_true, decide_eq_true_eq] at hsep
        rcases hsep with ((rfl | rfl) | rfl) | rfl <;> exact absurd hdigit (by decide)
  rw [h.last, ha, Option.filter_some, hsep]
  rfl

include hs

/-- A letter or digit right before is the last character of the word. -/
theorem Followed.prev_kept (hprev : u.isUpper st.prev ∨ u.isLower st.prev ∨ u.isDigit st.prev) :
    s.getLast? = some st.prev ∧ st.prev.toNat < 128 ∧ trail s = some st.prev := by
  rcases List.eq_nil_or_concat s with rfl | ⟨front, d, rfl⟩
  · have hzero : st.prev = Char.ofNat 0 := h.prev
    rw [hzero, u.isUpper_ascii _ (by decide), u.isLower_ascii _ (by decide), u.isDigit_ascii _ (by decide)] at hprev
    exact absurd hprev (by decide)
  · rw [List.concat_eq_append] at hs ⊢
    have hd : st.prev = d := by simp [h.prev]
    have hascii := hs d (by simp)
    rw [hd, u.isUpper_ascii _ hascii, u.isLower_ascii _ hascii, u.isDigit_ascii _ hascii] at hprev
    rw [trail_concat, not_dropped_of_class hprev, hd]
    exact ⟨by simp, hascii, rfl⟩

omit hs

/-- No letter was added to a digit. -/
theorem Followed.digits_concat {st' : Scan} (hst : st'.AllLast ↔ st.AllLast)
    (hno : ∀ a ∈ trail s, a.isDigit → ¬ (c.isLower ∨ c.isUpper ∧ s.getLast? ≠ some a)) :
    st'.AllLast ↔ ¬ LetterAfterDigit (s ++ [c]) := by
  rw [hst, h.digits, letterAfterDigit_concat, not_or]
  refine (and_iff_left ?_).symm
  rintro ⟨a, ha, hdigit, hc⟩
  exact hno a ha hdigit hc

/-- A character that is added to the word. -/
theorem Followed.append (hc : Alnum c)
    (hiff : ∀ a ∈ trail s, a.isDigit → (c.isLower ∨ c.isUpper ∧ s.getLast? ≠ some a ↔ ¬ c.isDigit)) :
    (st.cur ++ [c]).getLast? = (trail (s ++ [c])).filter (!isSeparator ·) ∧
      (Scan.AllLast { st with cur := st.cur ++ [c] } ↔ ¬ LetterAfterDigit (s ++ [c])) := by
  refine ⟨by rw [filter_trail_concat hc, List.getLast?_concat], ?_⟩
  rw [allLast_append, letterAfterDigit_concat, not_or, h.digits]
  refine and_congr_right fun _ => ?_
  constructor
  · rintro hlast ⟨a, ha, hdigit, hletter⟩
    exact (hiff a ha hdigit).mp hletter (hlast a (h.digit ha hdigit) hdigit)
  · intro hno a ha hdigit
    by_contra hc
    have htrail : a ∈ trail s := by
      rw [h.last] at ha
      exact (Option.filter_eq_some_iff.mp ha).1
    exact hno ⟨a, htrail, hdigit, (hiff a htrail hdigit).mpr hc⟩

include hs

/-- A capital right after a small letter or a digit starts a word. -/
theorem Followed.cut_word (hc : Alnum c) (hupper : c.isUpper) (hprev : u.isLower st.prev ∨ u.isDigit st.prev) :
    (st.flush.cur ++ [c]).getLast? = (trail (s ++ [c])).filter (!isSeparator ·) ∧
      (Scan.AllLast { st.flush with cur := st.flush.cur ++ [c] } ↔ ¬ LetterAfterDigit (s ++ [c])) := by
  obtain ⟨hlast, _, htrail⟩ := h.prev_kept (u := u) hs (.inr hprev)
  have hlower : ¬ c.isLower := fun hlower => (disjoint_classes hc.1).1 hlower hupper
  refine ⟨by rw [filter_trail_concat hc, List.getLast?_concat], h.digits_concat ?_ fun a ha _ => ?_⟩
  · rw [allLast_append, flush_cur, allLast_flush]
    simp
  · rw [Option.mem_def.mp ha] at htrail
    simp [hlower, hlast, htrail]

/-- A small letter after two capitals takes the second one with it. -/
theorem Followed.cut_acronym {next before : Char} {rest : List Char} (hc : Alnum c)
    (hcur : st.cur.reverse = next :: before :: rest) (hprev : u.isUpper st.prev) (hbefore : u.isUpper before) :
    [next, c].getLast? = (trail (s ++ [c])).filter (!isSeparator ·) ∧
      (Scan.AllLast { st with words := st.words ++ [st.cur.dropLast], cur := [next, c] } ↔
        ¬ LetterAfterDigit (s ++ [c])) := by
  obtain ⟨_, hascii, htrail⟩ := h.prev_kept (u := u) hs (.inl hprev)
  have hcapitals : ∀ d : Char, d.toNat < 128 → u.isUpper d → ¬ d.isDigit := fun d hd hupper hdigit =>
    ((disjoint_classes hd).2.1 hdigit).1 (u.isUpper_ascii d hd ▸ hupper)
  have hnext : next = st.prev := by
    have hlast := h.last
    rw [List.getLast?_eq_head?_reverse, hcur, htrail] at hlast
    exact (Option.some.inj (Option.filter_eq_some_iff.mp hlast.symm).1).symm
  have hmem : before ∈ st.cur := by
    rw [← List.mem_reverse, hcur]
    simp
  refine ⟨(filter_trail_concat hc).symm, h.digits_concat (allLast_acronym hcur ?_ ?_) fun a ha hd => ?_⟩
  · exact hcapitals before (h.good.cur before hmem).1 hbefore
  · rw [hnext]
    exact hcapitals _ hascii hprev
  · cases htrail.symm.trans ha
    exact absurd hd (hcapitals _ hascii hprev)

/-- A capital that does not start a word does not come right after a digit. -/
theorem Followed.keep_word (hc : Alnum c) (hupper : c.isUpper)
    (hkeep : ¬ (st.cur ≠ [] ∧ (u.isLower st.prev ∨ u.isDigit st.prev))) :
    (st.cur ++ [c]).getLast? = (trail (s ++ [c])).filter (!isSeparator ·) ∧
      (Scan.AllLast { st with cur := st.cur ++ [c] } ↔ ¬ LetterAfterDigit (s ++ [c])) := by
  have hdigit : ¬ c.isDigit := fun hdigit => ((disjoint_classes hc.1).2.1 hdigit).1 hupper
  refine h.append hc fun a ha hd => iff_of_true (.inr ⟨hupper, fun hlast => hkeep ?_⟩) hdigit
  have hprev : st.prev = a := by simp [h.prev, List.getLastD_eq_getLast?, hlast]
  refine ⟨fun hnil => ?_, .inr ?_⟩
  · have := h.digit ha hd
    simp [hnil] at this
  · rw [hprev, u.isDigit_ascii a (hs a (List.mem_of_getLast? hlast))]
    exact hd

theorem Followed.rune (hc : c.toNat < 128) : (st.rune u c).cur.getLast? = (trail (s ++ [c])).filter (!isSeparator ·) ∧
    ((st.rune u c).AllLast ↔ ¬ LetterAfterDigit (s ++ [c])) := by
  obtain ⟨_, hdul, hsep⟩ := disjoint_classes hc
  unfold Scan.rune
  rw [u.isUpper_ascii c hc, u.isLower_ascii c hc, u.isDigit_ascii c hc]
  split
  next hseparator =>
    obtain ⟨hupper, hlower, _⟩ := hsep hseparator
    refine ⟨?_, h.digits_concat allLast_flush fun _ _ _ => by simp [hupper, hlower]⟩
    rw [flush_cur, trail_concat, dropped, hseparator, Bool.not_true, Bool.and_false]
    simp [Option.filter_some, hseparator]
  next hseparator =>
    split
    next hupper =>
      split
      next hcut => exact h.cut_word hs ⟨hc, .inl hupper⟩ hupper hcut.2
      next hkeep => exact h.keep_word hs ⟨hc, .inl hupper⟩ hupper hkeep
    next hupper =>
      split
      next hlower =>
        have halnum : Alnum c := ⟨hc, .inr (.inl hlower)⟩
        have happend := h.append halnum fun _ _ _ => iff_of_true (.inl hlower) fun hdigit => (hdul hdigit).2 hlower
        split
        next next before rest hcur =>
          split
          next hcut => exact h.cut_acronym hs halnum hcur hcut.1 hcut.2
          next => exact happend
        next => exact happend
      next hlower =>
        split
        next hdigit => exact h.append ⟨hc, .inr (.inr hdigit)⟩ fun _ _ _ => by simp [hupper, hlower, hdigit]
        next hdigit =>
          refine ⟨?_, h.digits_concat Iff.rfl fun _ _ _ => by simp [hupper, hlower]⟩
          have hdropped : dropped c = true := by
            rw [dropped, Bool.eq_false_iff.mpr (mt isAlphanum_iff.mp (by simp [hupper, hlower, hdigit]))]
            simpa using hseparator
          rw [trail_concat, if_pos hdropped, h.last]

end Step

theorem foldl_followed (hs : ∀ c ∈ s, c.toNat < 128) :
    Followed s (s.foldl (Scan.step u) ⟨[], [], Char.ofNat 0⟩) := by
  induction s using List.reverseRecOn with
  | nil =>
      refine ⟨⟨nofun, nofun⟩, rfl, rfl, iff_of_true ⟨nofun, .nil⟩ ?_⟩
      rintro ⟨a, mid, b, hinfix, _⟩
      simp at hinfix
  | append_singleton s c ih =>
      have hs' : ∀ d ∈ s, d.toNat < 128 := fun d hd => hs d (List.mem_append_left _ hd)
      have hc := hs c (by simp)
      obtain ⟨hlast, hdigits⟩ := (ih hs').rune (u := u) hs' hc
      rw [List.foldl_append, List.foldl_cons, List.foldl_nil]
      exact ⟨(ih hs').good.step hc, by simp [Scan.step], hlast, hdigits⟩

/-- The words of a string have their digits last if and only if no letter follows a digit in it. -/
theorem splitRunes_digitsLast_iff (hs : ∀ c ∈ s, c.toNat < 128) :
    (∀ w ∈ splitRunes u s, DigitsLast w) ↔ ¬ LetterAfterDigit s := by
  have hall := allLast_flush.trans (foldl_followed (u := u) hs).digits
  rw [Scan.AllLast, flush_cur] at hall
  exact (and_iff_left .nil).symm.trans hall

end Gopkg.Stringcase
