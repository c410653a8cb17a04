import Gopkg.Stringcase.Lemmas.Split

/-!
# Where the characters of the words come from

The scan is followed with each character that it keeps at its position in the string.
-/

namespace Gopkg.Stringcase

/-- The letters and digits of a string, at their positions. -/
def kept (s : List Char) : List (Char × Nat) := s.zipIdx.filter fun p => p.1.isAlphanum

/-- A word that is not to be cut: where two of its characters are neighbours in the string too, no capital follows a
small letter or a digit, and no small letter follows the last of two capitals. -/
structure Uncut (w : List (Char × Nat)) : Prop where
  no_capital : ∀ a b i, [(a, i), (b, i + 1)] <:+: w → a.isLower ∨ a.isDigit → ¬ b.isUpper
  no_acronym : ∀ a i b j c, [(a, i), (b, j), (c, j + 1)] <:+: w → a.isUpper → b.isUpper → ¬ c.isLower

variable {u : Unicode} {st : Scan} {c : Char} {n : Nat} {s : List Char} {cur w : List (Char × Nat)}
  {ws : List (List (Char × Nat))}

theorem Uncut.of_infix {v : List (Char × Nat)} (h : Uncut w) (hv : v <:+: w) : Uncut v :=
  ⟨fun a b i hab => h.no_capital a b i (hab.trans hv), fun a i b j c habc => h.no_acronym a i b j c (habc.trans hv)⟩

theorem uncut_of_length_le (hw : w.length ≤ 2) (hpair : ∀ a b i, w = [(a, i), (b, i + 1)] →
    a.isLower ∨ a.isDigit → ¬ b.isUpper) : Uncut w := by
  refine ⟨fun a b i hab => hpair a b i ?_, fun a i b j c habc => ?_⟩
  · exact (hab.eq_of_length_le hw).symm
  · have hlen := habc.length_le
    simp only [List.length_cons, List.length_nil] at hlen
    omega

theorem uncut_nil : Uncut [] := by
  refine uncut_of_length_le (Nat.zero_le 2) fun a b i heq => ?_
  cases heq

theorem suffix_of_concat {α : Type*} {l t : List α} {x y : α} (h : t ++ [x] <:+ l ++ [y]) : t <:+ l ∧ x = y := by
  rcases List.suffix_concat_iff.mp h with hnil | ⟨t', ht', hsuffix⟩
  · simp at hnil
  · obtain ⟨rfl, hlast⟩ := List.append_inj' ht' rfl
    exact ⟨hsuffix, List.singleton_inj.mp hlast⟩

/-- The conditions are about the last characters, when one is added. -/
theorem Uncut.concat (h : Uncut w)
    (hcapital : ∀ a i, (a, i) ∈ w → i + 1 = n → a.isLower ∨ a.isDigit → ¬ c.isUpper)
    (hacronym : ∀ a i b j, [(a, i), (b, j)] <:+ w → j + 1 = n → a.isUpper → b.isUpper → ¬ c.isLower) :
    Uncut (w ++ [(c, n)]) := by
  constructor
  · intro a b i hab
    rcases List.infix_concat_iff.mp hab with hsuffix | hinfix
    · obtain ⟨hlast, heq⟩ := suffix_of_concat (t := [(a, i)]) hsuffix
      cases heq
      exact hcapital a i (hlast.subset List.mem_cons_self) rfl
    · exact h.no_capital a b i hinfix
  · intro a i b j d habd
    rcases List.infix_concat_iff.mp habd with hsuffix | hinfix
    · obtain ⟨hlast, heq⟩ := suffix_of_concat (t := [(a, i), (b, j)]) hsuffix
      cases heq
      exact hacronym a i b j hlast rfl
    · exact h.no_acronym a i b j d hinfix

/-! ## The scan -/

/-- The words of the scan and the one it is in, made of the characters that are kept so far. -/
structure Traced (keep : List (Char × Nat)) (st : Scan) (ws : List (List (Char × Nat))) (cur : List (Char × Nat)) :
    Prop where
  words_eq : st.words = ws.map fun w => w.map Prod.fst
  cur_eq : st.cur = cur.map Prod.fst
  flatten : ws.flatten ++ cur = keep
  nonempty : ∀ w ∈ ws, w ≠ []
  uncut : ∀ w ∈ ws, Uncut w
  uncut_cur : Uncut cur

variable {keep : List (Char × Nat)}

theorem Traced.concat (h : Traced keep st ws cur) (hcur : Uncut (cur ++ [(c, n)])) :
    Traced (keep ++ [(c, n)]) { st with cur := st.cur ++ [c] } ws (cur ++ [(c, n)]) where
  words_eq := h.words_eq
  cur_eq := by simp [h.cur_eq]
  flatten := by rw [← h.flatten, List.append_assoc]
  nonempty := h.nonempty
  uncut := h.uncut
  uncut_cur := hcur

theorem Traced.flush (h : Traced keep st ws cur) : ∃ ws', Traced keep st.flush ws' [] := by
  by_cases hnil : cur = []
  · have hcur : st.cur = [] := by rw [h.cur_eq, hnil, List.map_nil]
    rw [Scan.flush, if_neg (not_not_intro hcur)]
    exact ⟨ws, hnil ▸ h⟩
  · have hcur : st.cur ≠ [] := by
      rw [h.cur_eq]
      simpa using hnil
    rw [Scan.flush, if_pos hcur]
    refine ⟨ws ++ [cur], ?_, rfl, ?_, ?_, ?_, uncut_nil⟩
    · simp [h.words_eq, h.cur_eq]
    · simpa using h.flatten
    · simpa [or_imp, forall_and] using ⟨h.nonempty, hnil⟩
    · simpa [or_imp, forall_and] using ⟨h.uncut, h.uncut_cur⟩

/-- The last capital of an acronym goes to the next word. -/
theorem Traced.acronym {next before : Char} {rest : List Char} (h : Traced keep st ws cur)
    (hcur : st.cur.reverse = next :: before :: rest) (hc : ¬ c.isUpper) :
    ∃ ws' cur', Traced (keep ++ [(c, n)]) { st with words := st.words ++ [st.cur.dropLast], cur := [next, c] }
      ws' cur' := by
  rcases List.eq_nil_or_concat cur with rfl | ⟨front, x, rfl⟩
  · simp [h.cur_eq] at hcur
  · rw [List.concat_eq_append] at h
    have hparts : x.1 = next ∧ front ≠ [] := by
      rw [h.cur_eq] at hcur
      simp only [List.map_append, List.map_cons, List.map_nil, List.reverse_append, List.reverse_cons,
        List.reverse_nil, List.nil_append, List.cons_append, List.cons.injEq] at hcur
      refine ⟨hcur.1, ?_⟩
      rintro rfl
      simp at hcur
    refine ⟨ws ++ [front], [x, (c, n)], ?_, ?_, ?_, ?_, ?_, ?_⟩
    · simp [h.words_eq, h.cur_eq]
    · simp [hparts.1]
    · simp [← h.flatten]
    · simpa [or_imp, forall_and] using ⟨h.nonempty, hparts.2⟩
    · simpa [or_imp, forall_and] using ⟨h.uncut, h.uncut_cur.of_infix (List.prefix_append _ _).isInfix⟩
    · refine uncut_of_length_le (by simp) fun a b i heq _ => ?_
      simp only [List.cons.injEq, Prod.mk.injEq] at heq
      rwa [← heq.2.1.1]

theorem kept_concat (s : List Char) (c : Char) :
    kept (s ++ [c]) = kept s ++ if c.isAlphanum then [(c, s.length)] else [] := by
  rw [kept, List.zipIdx_append, List.filter_append, ← kept]
  by_cases hc : c.isAlphanum <;> simp [hc]

/-- A kept character right before the next one is the previous character of the scan. -/
theorem eq_prev_of_mem_kept {a : Char} {i : Nat} (hmem : (a, i) ∈ kept s) (hi : i + 1 = s.length) (d : Char) :
    a = s.getLastD d := by
  have hget := List.mem_zipIdx_iff_getElem?.mp (List.mem_of_mem_filter hmem)
  rw [List.getLastD_eq_getLast?, List.getLast?_eq_getElem?, ← hi, Nat.add_sub_cancel, hget]
  rfl

theorem isAlphanum_iff : c.isAlphanum = true ↔ c.isUpper ∨ c.isLower ∨ c.isDigit := by
  change (c.isUpper || c.isLower || c.isDigit) = true ↔ _
  rw [Bool.or_eq_true, Bool.or_eq_true, or_assoc]

section Step

variable (h : Traced (kept s) st ws cur) (hs : ∀ c ∈ s, c.toNat < 128) (hprev : st.prev = s.getLastD (Char.ofNat 0))

include h

theorem Traced.mem_kept {p : Char × Nat} (hp : p ∈ cur) : p ∈ kept s :=
  h.flatten ▸ List.mem_append_right _ hp

/-- A character that is not kept leaves the word as it is. -/
theorem Traced.skip (hc : ¬ (c.isUpper ∨ c.isLower ∨ c.isDigit)) : Traced (kept (s ++ [c])) st ws cur := by
  rw [kept_concat, if_neg (mt isAlphanum_iff.mp hc), List.append_nil]
  exact h

/-- A character that is kept and need not start a word. -/
theorem Traced.append (hc : c.isUpper ∨ c.isLower ∨ c.isDigit)
    (hcapital : ∀ a i, (a, i) ∈ cur → i + 1 = s.length → a.isLower ∨ a.isDigit → ¬ c.isUpper)
    (hacronym : ∀ a i b j, [(a, i), (b, j)] <:+ cur → j + 1 = s.length → a.isUpper → b.isUpper → ¬ c.isLower) :
    ∃ ws' cur', Traced (kept (s ++ [c])) { st with cur := st.cur ++ [c] } ws' cur' := by
  rw [kept_concat, if_pos (isAlphanum_iff.mpr hc)]
  exact ⟨ws, _, h.concat (h.uncut_cur.concat hcapital hacronym)⟩

include hs

theorem Traced.ascii {a : Char} {i : Nat} (hmem : (a, i) ∈ cur) : a.toNat < 128 :=
  hs a (List.fst_mem_of_mem_zipIdx (List.mem_of_mem_filter (h.mem_kept hmem)))

include hprev

theorem Traced.capital (hc : c.toNat < 128) (hupper : c.isUpper) : ∃ ws' cur', Traced (kept (s ++ [c]))
    { (if st.cur ≠ [] ∧ (u.isLower st.prev ∨ u.isDigit st.prev) then st.flush else st) with
      cur := (if st.cur ≠ [] ∧ (u.isLower st.prev ∨ u.isDigit st.prev) then st.flush else st).cur ++ [c] }
    ws' cur' := by
  have hlower : ¬ c.isLower := fun hl => (disjoint_classes hc).1 hl hupper
  split
  next hcut =>
    obtain ⟨ws', h'⟩ := h.flush
    exact h'.append (.inl hupper) nofun fun _ _ _ _ _ _ _ _ => hlower
  next hkeep =>
    refine h.append (.inl hupper) (fun a i hmem hi ha => ?_) fun _ _ _ _ _ _ _ _ => hlower
    -- the word would have been ended before the capital
    have hcur : st.cur ≠ [] := by
      rw [h.cur_eq]
      exact fun hnil => List.not_mem_nil (List.map_eq_nil_iff.mp hnil ▸ hmem)
    have ha' := h.ascii hs hmem
    rw [← u.isLower_ascii a ha', ← u.isDigit_ascii a ha', eq_prev_of_mem_kept (h.mem_kept hmem) hi, ← hprev] at ha
    exact absurd ⟨hcur, ha⟩ hkeep

/-- Two capitals at the end of the word, the second right before the next character. -/
theorem Traced.two_capitals {a b : Char} {i j : Nat} (hlast : [(a, i), (b, j)] <:+ cur) (hj : j + 1 = s.length)
    (ha : a.isUpper) (hb : b.isUpper) :
    ∃ rest, st.cur.reverse = b :: a :: rest ∧ u.isUpper st.prev ∧ u.isUpper a := by
  obtain ⟨front, hfront⟩ := hlast
  have hmem : (a, i) ∈ cur ∧ (b, j) ∈ cur := by simp [← hfront]
  rw [hprev, ← eq_prev_of_mem_kept (h.mem_kept hmem.2) hj, u.isUpper_ascii a (h.ascii hs hmem.1),
    u.isUpper_ascii b (h.ascii hs hmem.2)]
  exact ⟨(front.map Prod.fst).reverse, by simp [h.cur_eq, ← hfront], hb, ha⟩

theorem Traced.rune (hc : c.toNat < 128) : ∃ ws' cur', Traced (kept (s ++ [c])) (st.rune u c) ws' cur' := by
  unfold Scan.rune
  rw [u.isUpper_ascii c hc, u.isLower_ascii c hc, u.isDigit_ascii c hc]
  split
  next hseparator =>
    obtain ⟨ws', h'⟩ := h.flush
    exact ⟨ws', [], h'.skip (by simp [(disjoint_classes hc).2.2 hseparator])⟩
  next =>
    split
    next hupper => exact h.capital hs hprev hc hupper
    next hupper =>
      have hnocapital : ∀ a i, (a, i) ∈ cur → i + 1 = s.length → a.isLower ∨ a.isDigit → ¬ c.isUpper :=
        fun _ _ _ _ _ => hupper
      split
      next hlower =>
        split
        next hcur =>
          split
          next hcut =>
            rw [kept_concat, if_pos (isAlphanum_iff.mpr (.inr (.inl hlower)))]
            exact h.acronym hcur hupper
          next hkeep =>
            refine h.append (.inr (.inl hlower)) hnocapital fun a i b j hlast hj ha hb => ?_
            obtain ⟨rest', hcur', hp, ha'⟩ := h.two_capitals hs hprev hlast hj ha hb
            rw [hcur, List.cons.injEq, List.cons.injEq] at hcur'
            exact absurd ⟨hp, hcur'.2.1 ▸ ha'⟩ hkeep
        next hshort =>
          refine h.append (.inr (.inl hlower)) hnocapital fun a i b j hlast hj ha hb => ?_
          obtain ⟨rest', hcur', _⟩ := h.two_capitals (u := u) hs hprev hlast hj ha hb
          exact absurd hcur' (hshort _ _ _)
      next hlower =>
        split
        next hd => exact h.append (.inr (.inr hd)) hnocapital fun _ _ _ _ _ _ _ _ => hlower
        next hd => exact ⟨ws, cur, h.skip (by simp [hupper, hlower, hd])⟩

end Step

theorem foldl_traced (hs : ∀ c ∈ s, c.toNat < 128) : ∃ ws cur,
    Traced (kept s) (s.foldl (Scan.step u) ⟨[], [], Char.ofNat 0⟩) ws cur ∧
      (s.foldl (Scan.step u) ⟨[], [], Char.ofNat 0⟩).prev = s.getLastD (Char.ofNat 0) := by
  induction s using List.reverseRecOn with
  | nil => exact ⟨[], [], ⟨rfl, rfl, rfl, nofun, nofun, uncut_nil⟩, rfl⟩
  | append_singleton s c ih =>
      have hs' : ∀ d ∈ s, d.toNat < 128 := fun d hd => hs d (List.mem_append_left _ hd)
      obtain ⟨ws, cur, htraced, hprev⟩ := ih hs'
      obtain ⟨ws', cur', hnext⟩ := htraced.rune (u := u) hs' hprev (hs c (by simp))
      rw [List.foldl_append, List.foldl_cons, List.foldl_nil]
      exact ⟨ws', cur', ⟨hnext.1, hnext.2, hnext.3, hnext.4, hnext.5, hnext.6⟩, by simp [Scan.step]⟩

/-- The words of a string, with the characters that they are made of. -/
theorem splitRunes_traced (hs : ∀ c ∈ s, c.toNat < 128) : ∃ ws : List (List (Char × Nat)),
    splitRunes u s = ws.map (fun w => w.map Prod.fst) ∧ ws.flatten = kept s ∧ (∀ w ∈ ws, w ≠ []) ∧
      ∀ w ∈ ws, Uncut w := by
  obtain ⟨ws, cur, htraced, _⟩ := foldl_traced (u := u) hs
  obtain ⟨ws', hend⟩ := htraced.flush
  exact ⟨ws', hend.words_eq, by simpa using hend.flatten, hend.nonempty, hend.uncut⟩

end Gopkg.Stringcase
