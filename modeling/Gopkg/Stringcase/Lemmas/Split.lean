import Gopkg.Stringcase.Split

/-!
# The words that the scan finds
-/

namespace Gopkg.Stringcase

variable {u : Unicode} {st : Scan} {c p : Char} {w l : List Char} {ws : List (List Char)}

/-! ## ASCII letters and digits -/

def LowerOrDigit (c : Char) : Prop := c.toNat < 128 ∧ (c.isLower ∨ c.isDigit)

def UpperOrDigit (c : Char) : Prop := c.toNat < 128 ∧ (c.isUpper ∨ c.isDigit)

/-- An ASCII letter or digit. -/
def Alnum (c : Char) : Prop := c.toNat < 128 ∧ (c.isUpper ∨ c.isLower ∨ c.isDigit)

/-- What holds of the ASCII characters, one by one. -/
@[elab_as_elim]
theorem ascii_induction {P : Char → Prop} (c : Char) (hc : c.toNat < 128) (h : ∀ n : Fin 128, P (Char.ofNat n)) :
    P c :=
  Char.ofNat_toNat c ▸ h ⟨c.toNat, hc⟩

theorem disjoint_classes (hc : c.toNat < 128) :
    (c.isLower → ¬ c.isUpper) ∧ (c.isDigit → ¬ c.isUpper ∧ ¬ c.isLower) ∧
      (isSeparator c → ¬ c.isUpper ∧ ¬ c.isLower ∧ ¬ c.isDigit) :=
  ascii_induction c hc (by decide)

theorem case_facts (hc : c.toNat < 128) :
    c.toLower.toNat < 128 ∧ c.toUpper.toNat < 128 ∧ c.toLower.toLower = c.toLower ∧ c.toUpper.toUpper = c.toUpper ∧
      c.toUpper.toLower = c.toLower ∧ c.toUpper.isDigit = c.isDigit ∧
      (c.isUpper ∨ c.isLower ∨ c.isDigit →
        (c.toLower.isLower ∨ c.toLower.isDigit) ∧ (c.toUpper.isUpper ∨ c.toUpper.isDigit)) :=
  ascii_induction c hc (by decide)

theorem Alnum.not_separator (hc : Alnum c) : isSeparator c = false := by
  cases hsep : isSeparator c with
  | false => rfl
  | true => exact absurd hc.2 (by simp [(disjoint_classes hc.1).2.2 hsep])

theorem LowerOrDigit.alnum (hc : LowerOrDigit c) : Alnum c := ⟨hc.1, .inr hc.2⟩

theorem UpperOrDigit.alnum (hc : UpperOrDigit c) : Alnum c := ⟨hc.1, hc.2.imp_right .inr⟩

theorem Alnum.toLower (hc : Alnum c) : LowerOrDigit (u.toLower c) := by
  obtain ⟨hlt, _, _, _, _, _, hclass⟩ := case_facts hc.1
  rw [u.toLower_ascii c hc.1]
  exact ⟨hlt, (hclass hc.2).1⟩

theorem Alnum.toUpper (hc : Alnum c) : UpperOrDigit (u.toUpper c) := by
  obtain ⟨_, hlt, _, _, _, _, hclass⟩ := case_facts hc.1
  rw [u.toUpper_ascii c hc.1]
  exact ⟨hlt, (hclass hc.2).2⟩

theorem Alnum.toUpper_isDigit (hc : Alnum c) : (u.toUpper c).isDigit = u.isDigit c := by
  rw [u.toUpper_ascii c hc.1, u.isDigit_ascii c hc.1]
  exact (case_facts hc.1).2.2.2.2.2.1

theorem Alnum.fold_case (hc : Alnum c) : u.toLower (u.toLower c) = u.toLower c ∧
    u.toUpper (u.toUpper c) = u.toUpper c ∧ u.toLower (u.toUpper c) = u.toLower c := by
  obtain ⟨hlower, hupper, hll, huu, hul, _⟩ := case_facts hc.1
  rw [u.toLower_ascii c hc.1, u.toUpper_ascii c hc.1, u.toLower_ascii _ hlower, u.toUpper_ascii _ hupper,
    u.toLower_ascii _ hupper]
  exact ⟨hll, huu, hul⟩

/-! ## The words of a string -/

/-- Words are not empty, and have letters and digits only. -/
def IsWord (w : List Char) : Prop := w ≠ [] ∧ ∀ c ∈ w, Alnum c

theorem IsWord.map {P : Char → Prop} {f : Char → Char} (hw : IsWord w) (hf : ∀ c, Alnum c → P (f c)) :
    w.map f ≠ [] ∧ ∀ c ∈ w.map f, P c := by
  refine ⟨by simpa using hw.1, fun c hc => ?_⟩
  obtain ⟨d, hd, rfl⟩ := List.mem_map.mp hc
  exact hf d (hw.2 d hd)

structure Scan.Good (st : Scan) : Prop where
  words : ∀ w ∈ st.words, IsWord w
  cur : ∀ c ∈ st.cur, Alnum c

theorem Scan.Good.flush (h : st.Good) : st.flush.Good := by
  rw [Scan.flush]
  split
  next hne =>
    refine ⟨fun w hw => ?_, by simp⟩
    rcases List.mem_append.mp hw with hw | hw
    · exact h.words w hw
    · rw [List.mem_singleton.mp hw]
      exact ⟨hne, h.cur⟩
  next => exact h

theorem Scan.Good.append (h : st.Good) (hc : Alnum c) : Scan.Good { st with cur := st.cur ++ [c] } := by
  refine ⟨h.words, fun d hd => ?_⟩
  rcases List.mem_append.mp hd with hd | hd
  · exact h.cur d hd
  · exact List.mem_singleton.mp hd ▸ hc

theorem Scan.Good.acronym {next before : Char} {rest : List Char} (h : st.Good)
    (hcur : st.cur.reverse = next :: before :: rest) (hc : Alnum c) :
    Scan.Good { st with words := st.words ++ [st.cur.dropLast], cur := [next, c] } := by
  have hmem : ∀ d ∈ st.cur.reverse, Alnum d := fun d hd => h.cur d (List.mem_reverse.mp hd)
  have hdrop : st.cur.dropLast = rest.reverse ++ [before] := by
    rw [← List.reverse_reverse st.cur, hcur]
    simp
  rw [hcur] at hmem
  refine ⟨fun w hw => ?_, fun d hd => ?_⟩
  · rcases List.mem_append.mp hw with hw | hw
    · exact h.words w hw
    · rw [List.mem_singleton.mp hw, hdrop]
      refine ⟨by simp, fun d hd => hmem d ?_⟩
      rw [List.mem_append, List.mem_reverse, List.mem_singleton] at hd
      rw [List.mem_cons, List.mem_cons]
      exact .inr hd.symm
  · rcases List.mem_cons.mp hd with rfl | hd
    · exact hmem d List.mem_cons_self
    · exact List.mem_singleton.mp hd ▸ hc

theorem Scan.Good.step (h : st.Good) (hc : c.toNat < 128) : (st.step u c).Good := by
  suffices hrune : (st.rune u c).Good from ⟨hrune.words, hrune.cur⟩
  unfold Scan.rune
  rw [u.isUpper_ascii c hc, u.isLower_ascii c hc, u.isDigit_ascii c hc]
  split
  next => exact h.flush
  next =>
    split
    next hupper =>
      refine Scan.Good.append ?_ ⟨hc, .inl hupper⟩
      split
      · exact h.flush
      · exact h
    next =>
      split
      next hlower =>
        have hc : Alnum c := ⟨hc, .inr (.inl hlower)⟩
        split
        next hcur =>
          split
          next => exact h.acronym hcur hc
          next => exact h.append hc
        next => exact h.append hc
      next =>
        split
        next hdigit => exact h.append ⟨hc, .inr (.inr hdigit)⟩
        next => exact h

theorem splitRunes_isWord {s : List Char} (hs : ∀ c ∈ s, c.toNat < 128) : ∀ w ∈ splitRunes u s, IsWord w := by
  have hfold : ∀ st : Scan, st.Good → (s.foldl (Scan.step u) st).Good := by
    induction s with
    | nil => exact fun _ h => h
    | cons c s ih =>
        intro st h
        exact ih (fun d hd => hs d (List.mem_cons_of_mem _ hd)) _ (h.step (hs c List.mem_cons_self))
  exact (hfold _ ⟨by simp, by simp⟩).flush.words

/-! ## Words that are joined -/

/-- The scan is at the start of a word. -/
structure Scan.AtStart (u : Unicode) (st : Scan) : Prop where
  cur : st.cur = []
  prev : u.isUpper st.prev = false

/-- The scan takes the word for one word. -/
def Whole (u : Unicode) (w : List Char) : Prop :=
  w ≠ [] ∧ ∀ st : Scan, st.AtStart u → ∃ p, w.foldl (Scan.step u) st = ⟨st.words, w, p⟩

theorem atStart_init (u : Unicode) : Scan.AtStart u ⟨[], [], Char.ofNat 0⟩ :=
  ⟨rfl, u.isUpper_ascii _ (by decide)⟩

theorem isUpper_separator {sep : Char} (hsep : isSeparator sep) : u.isUpper sep = false := by
  simp only [isSeparator, Bool.or_eq_true, decide_eq_true_eq] at hsep
  rcases hsep with ((rfl | rfl) | rfl) | rfl
  all_goals exact u.isUpper_ascii _ (by decide)

theorem step_separator {sep : Char} (hsep : isSeparator sep) (hne : st.cur ≠ []) :
    st.step u sep = ⟨st.words ++ [st.cur], [], sep⟩ := by
  simp [Scan.step, Scan.rune, Scan.flush, hsep, hne]

theorem foldl_join {sep : Char} (hsep : isSeparator sep) (hws : ∀ w ∈ ws, Whole u w) (st : Scan)
    (hst : st.AtStart u) : (([sep].intercalate ws).foldl (Scan.step u) st).flush.words = st.words ++ ws := by
  induction ws generalizing st with
  | nil => simp [Scan.flush, hst.cur]
  | cons w ws ih =>
      rw [List.forall_mem_cons] at hws
      obtain ⟨⟨hne, hscan⟩, hws⟩ := hws
      obtain ⟨p, hw⟩ := hscan st hst
      cases ws with
      | nil => simp [hw, Scan.flush, hne]
      | cons w' ws =>
          have hstart : Scan.AtStart u ⟨st.words ++ [w], [], sep⟩ := ⟨rfl, isUpper_separator hsep⟩
          rw [List.intercalate_cons_cons, List.foldl_append, List.foldl_append, hw, List.foldl_cons, List.foldl_nil,
            step_separator hsep hne, ih hws _ hstart, List.append_assoc]
          rfl

theorem splitRunes_join {sep : Char} (hsep : isSeparator sep) (hws : ∀ w ∈ ws, Whole u w) :
    splitRunes u ([sep].intercalate ws) = ws :=
  foldl_join hsep hws _ (atStart_init u)

/-! ## Lower case -/

theorem LowerOrDigit.not_upper (hc : LowerOrDigit c) : u.isUpper c = false := by
  obtain ⟨hlower, hdigit, _⟩ := disjoint_classes hc.1
  rw [u.isUpper_ascii c hc.1, ← Bool.not_eq_true]
  rcases hc.2 with h | h
  · exact hlower h
  · exact (hdigit h).1

theorem step_lowerOrDigit (hprev : u.isUpper st.prev = false) (hc : LowerOrDigit c) :
    st.step u c = ⟨st.words, st.cur ++ [c], c⟩ := by
  unfold Scan.step Scan.rune
  rw [hc.alnum.not_separator, hc.not_upper, u.isLower_ascii c hc.1, u.isDigit_ascii c hc.1, hprev]
  rcases hc.2 with h | h
  · rw [h]
    cases st.cur.reverse with
    | nil => rfl
    | cons d rest => cases rest <;> simp
  · rw [h, Bool.eq_false_iff.mpr ((disjoint_classes hc.1).2.1 h).2]
    rfl

/-- Small letters and digits go on with the word that the scan is in. -/
theorem foldl_lowerOrDigit (st : Scan) (hprev : u.isUpper st.prev = false) (hw : ∀ c ∈ w, LowerOrDigit c) :
    w.foldl (Scan.step u) st = ⟨st.words, st.cur ++ w, w.getLastD st.prev⟩ := by
  induction w generalizing st with
  | nil => simp
  | cons c w ih =>
      rw [List.forall_mem_cons] at hw
      rw [List.foldl_cons, step_lowerOrDigit hprev hw.1, ih ⟨st.words, st.cur ++ [c], c⟩ hw.1.not_upper hw.2,
        List.append_assoc, List.getLastD_cons]
      rfl

theorem whole_lower (hne : w ≠ []) (hw : ∀ c ∈ w, LowerOrDigit c) : Whole u w := by
  refine ⟨hne, fun st hst => ⟨w.getLastD st.prev, ?_⟩⟩
  rw [foldl_lowerOrDigit st hst.prev hw, hst.cur, List.nil_append]

/-! ## Upper case -/

theorem UpperOrDigit.not_lower (hc : UpperOrDigit c) : u.isLower c = false := by
  obtain ⟨hlower, hdigit, _⟩ := disjoint_classes hc.1
  rw [u.isLower_ascii c hc.1, ← Bool.not_eq_true]
  rcases hc.2 with h | h
  · exact fun hl => hlower hl h
  · exact (hdigit h).2

theorem UpperOrDigit.isUpper_eq (hc : UpperOrDigit c) : u.isUpper c = !c.isDigit := by
  obtain ⟨_, hdigit, _⟩ := disjoint_classes hc.1
  rw [u.isUpper_ascii c hc.1]
  cases hd : c.isDigit with
  | true => exact Bool.eq_false_iff.mpr (hdigit hd).1
  | false => simpa [hd] using hc.2

/-- A digit ends no word, and a capital only one whose last character is a digit. -/
theorem step_upperOrDigit (hprev : st.cur ≠ [] → UpperOrDigit st.prev) (hc : UpperOrDigit c) : st.step u c =
    if st.cur ≠ [] ∧ st.prev.isDigit ∧ ¬ c.isDigit then ⟨st.words ++ [st.cur], [c], c⟩
    else ⟨st.words, st.cur ++ [c], c⟩ := by
  unfold Scan.step Scan.rune
  rw [hc.alnum.not_separator, hc.isUpper_eq, hc.not_lower, u.isDigit_ascii c hc.1]
  cases hd : c.isDigit with
  | true => simp
  | false =>
      by_cases hcur : st.cur = []
      · simp [hcur]
      · have hp := hprev hcur
        rw [hp.not_lower, u.isDigit_ascii _ hp.1]
        cases st.prev.isDigit <;> simp [hcur, Scan.flush]

/-- After a digit there are only digits. -/
def DigitsLast (w : List Char) : Prop := w.IsChain fun a b => a.isDigit → b.isDigit

theorem foldl_digitsLast (st : Scan) (hchain : DigitsLast (st.prev :: w)) (hprev : UpperOrDigit st.prev)
    (hw : ∀ c ∈ w, UpperOrDigit c) (u : Unicode) : ∃ p, w.foldl (Scan.step u) st = ⟨st.words, st.cur ++ w, p⟩ := by
  induction w generalizing st with
  | nil => exact ⟨st.prev, by simp⟩
  | cons c w ih =>
      rw [List.forall_mem_cons] at hw
      rw [DigitsLast, List.isChain_cons_cons] at hchain
      have hstep : st.step u c = ⟨st.words, st.cur ++ [c], c⟩ := by
        rw [step_upperOrDigit (fun _ => hprev) hw.1, if_neg fun h => h.2.2 (hchain.1 h.2.1)]
      obtain ⟨p, hp⟩ := ih ⟨st.words, st.cur ++ [c], c⟩ hchain.2 hw.1 hw.2
      exact ⟨p, by rw [List.foldl_cons, hstep, hp]; simp⟩

theorem step_start (hst : st.AtStart u) (hc : UpperOrDigit c) : st.step u c = ⟨st.words, [c], c⟩ := by
  rw [step_upperOrDigit (fun hne => absurd hst.cur hne) hc, if_neg fun h => h.1 hst.cur, hst.cur]
  rfl

theorem whole_upper (hne : w ≠ []) (hw : ∀ c ∈ w, UpperOrDigit c) (hlast : DigitsLast w) : Whole u w := by
  refine ⟨hne, fun st hst => ?_⟩
  cases w with
  | nil => exact absurd rfl hne
  | cons c w =>
      rw [List.forall_mem_cons] at hw
      obtain ⟨p, hp⟩ := foldl_digitsLast ⟨st.words, [c], c⟩ hlast hw.1 hw.2 u
      exact ⟨p, by rw [List.foldl_cons, step_start hst hw.1, hp]; rfl⟩

/-! ## Capitals after digits -/

/-- The scan never drops a word, and finds one more where a capital follows a digit. -/
theorem foldl_upper_length (st : Scan) (hcur : st.cur ≠ []) (hprev : UpperOrDigit st.prev)
    (hw : ∀ c ∈ w, UpperOrDigit c) :
    (w.foldl (Scan.step u) st).cur ≠ [] ∧ st.words.length ≤ (w.foldl (Scan.step u) st).words.length ∧
      (¬ DigitsLast (st.prev :: w) → st.words.length < (w.foldl (Scan.step u) st).words.length) := by
  induction w generalizing st with
  | nil => exact ⟨hcur, Nat.le_refl _, fun h => absurd (List.isChain_singleton _) h⟩
  | cons c w ih =>
      rw [List.forall_mem_cons] at hw
      rw [DigitsLast, List.isChain_cons_cons, List.foldl_cons, step_upperOrDigit (fun _ => hprev) hw.1]
      split
      next hcut =>
        obtain ⟨hne, hle, _⟩ := ih ⟨st.words ++ [st.cur], [c], c⟩ (by simp) hw.1 hw.2
        rw [List.length_append, List.length_singleton] at hle
        exact ⟨hne, by omega, fun _ => by omega⟩
      next hkeep =>
        obtain ⟨hne, hle, hlt⟩ := ih ⟨st.words, st.cur ++ [c], c⟩ (by simp) hw.1 hw.2
        refine ⟨hne, hle, fun hnot => hlt fun htail => hnot ⟨?_, htail⟩⟩
        intro hd
        by_contra hc
        exact hkeep ⟨hcur, hd, hc⟩

theorem scan_upper_length (hne : w ≠ []) (hw : ∀ c ∈ w, UpperOrDigit c) (hst : st.AtStart u) :
    (w.foldl (Scan.step u) st).cur ≠ [] ∧ st.words.length ≤ (w.foldl (Scan.step u) st).words.length ∧
      (¬ DigitsLast w → st.words.length < (w.foldl (Scan.step u) st).words.length) := by
  cases w with
  | nil => exact absurd rfl hne
  | cons c w =>
      rw [List.forall_mem_cons] at hw
      rw [List.foldl_cons, step_start hst hw.1]
      exact foldl_upper_length ⟨st.words, [c], c⟩ (by simp) hw.1 hw.2

theorem length_flush (hne : st.cur ≠ []) : st.flush.words.length = st.words.length + 1 := by
  simp [Scan.flush, hne]

theorem join_length {sep : Char} (hsep : isSeparator sep) (hws : ∀ w ∈ ws, w ≠ [] ∧ ∀ c ∈ w, UpperOrDigit c)
    (st : Scan) (hst : st.AtStart u) :
    st.words.length + ws.length ≤ (([sep].intercalate ws).foldl (Scan.step u) st).flush.words.length ∧
      ((∃ w ∈ ws, ¬ DigitsLast w) →
        st.words.length + ws.length < (([sep].intercalate ws).foldl (Scan.step u) st).flush.words.length) := by
  induction ws generalizing st with
  | nil => simp [Scan.flush, hst.cur]
  | cons w ws ih =>
      rw [List.forall_mem_cons] at hws
      obtain ⟨hcur, hle, hlt⟩ := scan_upper_length hws.1.1 hws.1.2 hst
      cases ws with
      | nil =>
          rw [List.intercalate_singleton, length_flush hcur]
          simp only [List.mem_singleton, exists_eq_left, List.length_singleton]
          exact ⟨by omega, fun h => Nat.succ_lt_succ (hlt h)⟩
      | cons w' ws =>
          rw [List.intercalate_cons_cons, List.foldl_append, List.foldl_append, List.foldl_cons, List.foldl_nil,
            step_separator hsep hcur]
          obtain ⟨hle', hlt'⟩ := ih hws.2
            ⟨(w.foldl (Scan.step u) st).words ++ [(w.foldl (Scan.step u) st).cur], [], sep⟩
            ⟨rfl, isUpper_separator hsep⟩
          simp only [List.length_append, List.length_cons, List.length_nil] at hle' hlt' ⊢
          refine ⟨by omega, ?_⟩
          rintro ⟨v, hv, hnot⟩
          rcases List.mem_cons.mp hv with rfl | hv
          · have := hlt hnot
            omega
          · have := hlt' ⟨v, hv, hnot⟩
            omega

/-- Words in upper case are found again exactly when no capital follows a digit. -/
theorem splitRunes_upper_iff (hws : ∀ w ∈ ws, w ≠ [] ∧ ∀ c ∈ w, UpperOrDigit c) :
    (splitRunes u (['_'].intercalate ws)).length = ws.length ↔ ∀ w ∈ ws, DigitsLast w := by
  constructor
  · intro hlength w hw
    by_contra hnot
    have hsep : isSeparator '_' = true := rfl
    have hlt := (join_length hsep hws _ (atStart_init u)).2 ⟨w, hw, hnot⟩
    rw [← hlength] at hlt
    simp only [List.length_nil, Nat.zero_add, splitRunes] at hlt
    exact Nat.lt_irrefl _ hlt
  · intro hlast
    rw [splitRunes_join rfl fun w hw => whole_upper (hws w hw).1 (hws w hw).2 (hlast w hw)]

/-! ## Capitals in place of separators -/

def Capital (c : Char) : Prop := c.toNat < 128 ∧ c.isUpper

/-- A capital, and then a small letter or a digit at least. -/
def Capitalized : List Char → Prop
  | [] => False
  | c :: w => Capital c ∧ w ≠ [] ∧ ∀ d ∈ w, LowerOrDigit d

theorem getLastD_lowerOrDigit (hne : w ≠ []) (hw : ∀ c ∈ w, LowerOrDigit c) : LowerOrDigit (w.getLastD p) := by
  rw [List.getLastD_eq_getLast?, List.getLast?_eq_some_getLast hne]
  exact hw _ (List.getLast_mem hne)

/-- A capital ends the word before it. -/
theorem step_capital (hprev : st.cur ≠ [] → LowerOrDigit st.prev) (hc : Capital c) :
    st.step u c = ⟨st.flush.words, [c], c⟩ := by
  have hupper : u.isUpper c = true := (u.isUpper_ascii c hc.1).trans hc.2
  have halnum : Alnum c := ⟨hc.1, .inl hc.2⟩
  unfold Scan.step Scan.rune
  rw [halnum.not_separator, hupper]
  by_cases hcur : st.cur = []
  · simp [hcur, Scan.flush]
  · have hp := hprev hcur
    rw [u.isLower_ascii _ hp.1, u.isDigit_ascii _ hp.1]
    simp [hcur, hp.2, Scan.flush]

/-- What comes after the first capital of a word is not the end of an acronym. -/
theorem step_second (hcur : st.cur = [p]) (hc : LowerOrDigit c) : st.step u c = ⟨st.words, [p, c], c⟩ := by
  unfold Scan.step Scan.rune
  rw [hc.alnum.not_separator, hc.not_upper, u.isLower_ascii c hc.1, u.isDigit_ascii c hc.1, hcur]
  rcases hc.2 with h | h
  · simp [h]
  · simp [h, Bool.eq_false_iff.mpr ((disjoint_classes hc.1).2.1 h).2]

theorem foldl_capitalized (hprev : st.cur ≠ [] → LowerOrDigit st.prev) (hw : Capitalized w) :
    ∃ p, LowerOrDigit p ∧ w.foldl (Scan.step u) st = ⟨st.flush.words, w, p⟩ := by
  match w, hw with
  | c :: d :: w, ⟨hc, _, hlower⟩ =>
      have hd := List.forall_mem_cons.mp hlower
      refine ⟨(d :: w).getLastD c, getLastD_lowerOrDigit (List.cons_ne_nil d w) hlower, ?_⟩
      rw [List.foldl_cons, step_capital hprev hc, List.foldl_cons, step_second rfl hd.1,
        foldl_lowerOrDigit _ hd.1.not_upper hd.2, List.getLastD_cons]
      rfl

theorem foldl_flatten (hws : ∀ w ∈ ws, Capitalized w) (st : Scan) (hprev : st.cur ≠ [] → LowerOrDigit st.prev) :
    (ws.flatten.foldl (Scan.step u) st).flush.words = st.flush.words ++ ws := by
  induction ws generalizing st with
  | nil => simp
  | cons w ws ih =>
      rw [List.forall_mem_cons] at hws
      obtain ⟨p, hp, hw⟩ := foldl_capitalized (u := u) hprev hws.1
      have hne : w ≠ [] := by
        rintro rfl
        exact hws.1
      rw [List.flatten_cons, List.foldl_append, hw, ih hws.2 _ fun _ => hp]
      simp [Scan.flush, hne]

theorem splitRunes_flatten (hws : ∀ w ∈ ws, Capitalized w) : splitRunes u ws.flatten = ws :=
  foldl_flatten hws _ fun h => absurd rfl h

/-- The first word may be without its capital. -/
theorem splitRunes_lower_flatten (hne : w ≠ []) (hw : ∀ c ∈ w, LowerOrDigit c) (hws : ∀ w ∈ ws, Capitalized w) :
    splitRunes u (w ++ ws.flatten) = w :: ws := by
  rw [splitRunes, List.foldl_append, foldl_lowerOrDigit _ (atStart_init u).prev hw,
    foldl_flatten hws _ fun _ => getLastD_lowerOrDigit hne hw]
  simp [Scan.flush, hne]

end Gopkg.Stringcase
