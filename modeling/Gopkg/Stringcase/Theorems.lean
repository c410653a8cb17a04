import Gopkg.Stringcase.Lemmas.Digits

/-!
# Theorems about case styles
-/

namespace Gopkg.Stringcase

variable {u : Unicode} {w : List Char}

theorem digitsLast_map_toUpper (hw : ∀ c ∈ w, Alnum c) :
    DigitsLast (w.map u.toUpper) ↔ w.IsChain fun a b => u.isDigit a → u.isDigit b := by
  have hdigits : (w.map u.toUpper).map Char.isDigit = w.map u.isDigit := by
    rw [List.map_map]
    exact List.map_congr_left fun c hc => (hw c hc).toUpper_isDigit
  have hleft := List.isChain_map (R := fun a b : Bool => a → b) Char.isDigit (l := w.map u.toUpper)
  have hright := List.isChain_map (R := fun a b : Bool => a → b) u.isDigit (l := w)
  rw [DigitsLast, ← hright, ← hdigits, hleft]

/-- The words of an ASCII string, as strings. -/
theorem split_isWord {s : String} (hs : ∀ c ∈ s.toList, c.toNat < 128) : ∀ w ∈ split u s, IsWord w.toList := by
  intro w hw
  obtain ⟨v, hv, rfl⟩ := List.mem_map.mp hw
  rw [String.toList_ofList]
  exact splitRunes_isWord hs v hv

/-- Splitting a string that was joined from changed words. -/
theorem split_intercalate {sep : String} {r : Char} (hsep : sep.toList = [r]) (hr : isSeparator r) {f : String → String}
    {s : String} (hwhole : ∀ w ∈ split u s, Whole u (f w).toList) :
    split u (sep.intercalate ((split u s).map f)) = (split u s).map f := by
  have hwords : ∀ v ∈ ((split u s).map f).map String.toList, Whole u v := by
    intro v hv
    obtain ⟨fw, hfw, rfl⟩ := List.mem_map.mp hv
    obtain ⟨w, hw, rfl⟩ := List.mem_map.mp hfw
    exact hwhole w hw
  rw [split, String.toList_intercalate, hsep, splitRunes_join hr hwords, List.map_map]
  conv_rhs => rw [← List.map_id ((split u s).map f)]
  exact List.map_congr_left fun w _ => String.ofList_toList

section Ascii

variable {s : String} (hs : ∀ c ∈ s.toList, c.toNat < 128)

include hs

theorem whole_lower_word : ∀ w ∈ split u s, Whole u (lower u w).toList := by
  intro w hw
  obtain ⟨hne, hlower⟩ := (split_isWord hs w hw).map (f := u.toLower) fun _ => Alnum.toLower
  rw [lower, String.toList_ofList]
  exact whole_lower hne hlower

theorem split_snake : split u (snake u s) = (split u s).map (lower u) :=
  split_intercalate rfl rfl (whole_lower_word hs)

theorem split_kebab : split u (kebab u s) = (split u s).map (lower u) :=
  split_intercalate rfl rfl (whole_lower_word hs)

/-- The words in lower case, and in upper case, do not depend on the case that they are in. -/
theorem map_fold_case : ((split u s).map (lower u)).map (lower u) = (split u s).map (lower u) ∧
    ((split u s).map (upper u)).map (upper u) = (split u s).map (upper u) ∧
    ((split u s).map (upper u)).map (lower u) = (split u s).map (lower u) := by
  simp only [List.map_map]
  refine ⟨?_, ?_, ?_⟩
  all_goals
    refine List.map_congr_left fun w hw => ?_
    have hfold := fun c hc => ((split_isWord hs w hw).2 c hc).fold_case (u := u)
    simp only [Function.comp, lower, upper, String.toList_ofList, List.map_map]
    refine congrArg String.ofList (List.map_congr_left fun c hc => ?_)
  · exact (hfold c hc).1
  · exact (hfold c hc).2.1
  · exact (hfold c hc).2.2

theorem upper_word : ∀ v ∈ ((split u s).map (upper u)).map String.toList, v ≠ [] ∧ ∀ c ∈ v, UpperOrDigit c := by
  intro v hv
  obtain ⟨fw, hfw, rfl⟩ := List.mem_map.mp hv
  obtain ⟨w, hw, rfl⟩ := List.mem_map.mp hfw
  rw [upper, String.toList_ofList]
  exact (split_isWord hs w hw).map fun _ => Alnum.toUpper

theorem split_screamingSnake_length_iff : (split u (screamingSnake u s)).length = (split u s).length ↔
    ∀ w ∈ split u s, w.toList.IsChain fun a b => u.isDigit a → u.isDigit b := by
  have hiff := splitRunes_upper_iff (u := u) (upper_word (u := u) hs)
  rw [List.length_map, List.length_map] at hiff
  rw [split, List.length_map, screamingSnake, String.toList_intercalate]
  refine hiff.trans ?_
  simp only [List.forall_mem_map]
  refine forall₂_congr fun w hw => ?_
  rw [upper, String.toList_ofList]
  exact digitsLast_map_toUpper (split_isWord hs w hw).2

theorem split_screamingSnake (hlast : ∀ w ∈ split u s, w.toList.IsChain fun a b => u.isDigit a → u.isDigit b) :
    split u (screamingSnake u s) = (split u s).map (upper u) := by
  refine split_intercalate rfl rfl fun w hw => ?_
  obtain ⟨hne, hupper⟩ := upper_word hs (u := u) _ (List.mem_map_of_mem (List.mem_map_of_mem hw))
  refine whole_upper hne hupper ?_
  rw [upper, String.toList_ofList]
  exact (digitsLast_map_toUpper (split_isWord hs w hw).2).mpr (hlast w hw)

theorem split_digitsLast_iff :
    (∀ w ∈ split u s, w.toList.IsChain fun a b => u.isDigit a → u.isDigit b) ↔ ¬ LetterAfterDigit s.toList := by
  rw [← splitRunes_digitsLast_iff (u := u) hs, split, List.forall_mem_map]
  refine forall₂_congr fun w hw => ?_
  have hdigits : w.map u.isDigit = w.map Char.isDigit :=
    List.map_congr_left fun c hc => u.isDigit_ascii c ((splitRunes_isWord hs w hw).2 c hc).1
  rw [String.toList_ofList, DigitsLast, ← List.isChain_map (R := fun a b : Bool => a → b) u.isDigit, hdigits,
    List.isChain_map]

end Ascii

/-- Splitting gives back the words of a string in snake case or in kebab case. In upper case it does exactly when no
letter of a word comes right after a digit. A letter does so where it comes right after a digit in the string and is
small, or where it comes after a digit and characters that are dropped. -/
theorem separators_keep_words_iff (u : Unicode) (s : String) (hs : ∀ c ∈ s.toList, c.toNat < 128) :
    ((split u (snake u s)).map (lower u) = (split u s).map (lower u) ∧
      (split u (kebab u s)).map (lower u) = (split u s).map (lower u) ∧
      snake u (snake u s) = snake u s ∧ kebab u (kebab u s) = kebab u s ∧ snake u (kebab u s) = snake u s) ∧
    ((split u (screamingSnake u s)).map (lower u) = (split u s).map (lower u) ∧
      screamingSnake u (screamingSnake u s) = screamingSnake u s ∧ snake u (screamingSnake u s) = snake u s ↔
      ∀ w ∈ split u s, w.toList.IsChain fun a b => u.isDigit a → u.isDigit b) ∧
    ((∀ w ∈ split u s, w.toList.IsChain fun a b => u.isDigit a → u.isDigit b) ↔ ¬ LetterAfterDigit s.toList) := by
  obtain ⟨hll, huu, hul⟩ := map_fold_case (u := u) hs
  refine ⟨⟨?_, ?_, ?_, ?_, ?_⟩, ⟨?_, ?_⟩, split_digitsLast_iff hs⟩
  · rw [split_snake hs, hll]
  · rw [split_kebab hs, hll]
  · rw [snake, split_snake hs, hll, snake]
  · rw [kebab, split_kebab hs, hll, kebab]
  · rw [snake, split_kebab hs, hll, snake]
  · rintro ⟨hwords, _⟩
    refine (split_screamingSnake_length_iff hs).mp ?_
    simpa using congrArg List.length hwords
  · intro hlast
    have hsplit := split_screamingSnake hs hlast
    refine ⟨?_, ?_, ?_⟩
    · rw [hsplit, hul]
    · rw [screamingSnake, hsplit, huu, screamingSnake]
    · rw [snake, hsplit, hul, snake]

theorem separators_keep_words_iff_user :
    screamingSnake .asciiOnly (screamingSnake .asciiOnly "userID2") = "USER_ID2" ∧
      snake .asciiOnly (kebab .asciiOnly "userID2") = "user_id2" := by
  have hkeep := separators_keep_words_iff .asciiOnly "userID2" (by simp)
  exact ⟨(hkeep.2.1.mpr (by decide)).2.1.trans (by decide), hkeep.1.2.2.2.2.trans (by decide)⟩

/-- `a1b` is one word, and `A1B` is two. -/
theorem screamingSnake_splits_after_digit :
    split .asciiOnly "a1b" = ["a1b"] ∧ screamingSnake .asciiOnly "a1b" = "A1B" ∧
      split .asciiOnly "A1B" = ["A1", "B"] ∧ screamingSnake .asciiOnly "A1B" = "A1_B" ∧
      snake .asciiOnly "a1b" = "a1b" ∧ snake .asciiOnly "A1B" = "a1_b" := by
  decide

/-! ## Capitals -/

theorem letter_facts {c : Char} (hc : c.toNat < 128) (hletter : c.isAlpha) :
    Capital c.toLower.toUpper ∧ c.toLower.toUpper.toLower = c.toLower := by
  have hcapital : c.toLower.toUpper.toNat < 128 ∧ c.toLower.toUpper.isUpper ∧
      c.toLower.toUpper.toLower = c.toLower := by
    revert hletter
    exact ascii_induction c hc (by decide)
  exact ⟨⟨hcapital.1, hcapital.2.1⟩, hcapital.2.2⟩

/-- The word starts with a letter, and has two characters at least. -/
def Titleable (w : String) : Prop := (∃ c ∈ w.toList.head?, c.isAlpha) ∧ 2 ≤ w.length

/-- The runes of a word, and those of its title. -/
structure TitleSpec (u : Unicode) (w : String) : Prop where
  capitalized : Capitalized (title u w).toList
  lower_title : lower u (title u w) = lower u w
  title_title : title u (title u w) = title u w

theorem Titleable.exists_cons {w : String} (h : Titleable w) :
    ∃ c rest, w.toList = c :: rest ∧ c.isAlpha ∧ rest ≠ [] := by
  obtain ⟨⟨c, hc, hletter⟩, hlength⟩ := h
  rw [← String.length_toList] at hlength
  cases hw : w.toList with
  | nil => simp [hw] at hc
  | cons d rest =>
      rw [hw, List.head?_cons, Option.mem_some] at hc
      rw [hw, List.length_cons] at hlength
      refine ⟨d, rest, rfl, hc ▸ hletter, ?_⟩
      rintro rfl
      simp at hlength

theorem title_spec {w : String} (hw : IsWord w.toList) (htitle : Titleable w) : TitleSpec u w := by
  obtain ⟨c, rest, hrest, hletter, hne⟩ := htitle.exists_cons
  rw [hrest] at hw
  obtain ⟨halnum, hword⟩ := List.forall_mem_cons.mp hw.2
  obtain ⟨hcapital, hlower⟩ := letter_facts halnum.1 hletter
  have hascii : c.toLower.toNat < 128 := (case_facts halnum.1).1
  have htoUpper : u.toUpper (u.toLower c) = c.toLower.toUpper := by
    rw [u.toLower_ascii c halnum.1, u.toUpper_ascii _ hascii]
  have htoLower : u.toLower c.toLower.toUpper = u.toLower c := by
    rw [u.toLower_ascii _ hcapital.1, hlower, u.toLower_ascii c halnum.1]
  have htitle : title u w = String.ofList (c.toLower.toUpper :: rest.map u.toLower) := by
    simp only [title, lower, String.toList_ofList, hrest, List.map_cons, htoUpper]
  have hfold : (rest.map u.toLower).map u.toLower = rest.map u.toLower := by
    rw [List.map_map]
    exact List.map_congr_left fun d hd => (hword d hd).fold_case.1
  refine ⟨?_, ?_, ?_⟩
  · rw [htitle, String.toList_ofList]
    refine ⟨hcapital, ?_, fun d hd => ?_⟩
    · rwa [Ne, List.map_eq_nil_iff]
    · obtain ⟨r, hr, rfl⟩ := List.mem_map.mp hd
      exact (hword r hr).toLower
  · simp only [lower, htitle, String.toList_ofList, hrest, List.map_cons, htoLower, hfold]
  · rw [htitle]
    simp only [title, lower, String.toList_ofList, List.map_cons, htoLower, htoUpper, hfold]

/-- The runes of a title under a name of their own, so that they are not computed. -/
theorem TitleSpec.capitalized_of_toList {w : String} {v : List Char} (h : TitleSpec u w)
    (hv : (title u w).toList = v) : Capitalized v := by
  cases h with
  | mk hcapitalized _ _ =>
      rw [hv] at hcapitalized
      exact hcapitalized

theorem toList_join_flatten (vs : List String) : (String.join vs).toList = (vs.map String.toList).flatten := by
  rw [String.toList_join, List.flatMap_def]

theorem map_ofList_toList (vs : List String) : (vs.map String.toList).map String.ofList = vs := by
  simp [Function.comp_def]

theorem mapIdx_camelWord_cons (w : String) (ws : List String) :
    (w :: ws).mapIdx (camelWord u) = lower u w :: ws.map (title u) := by
  have hrest : ∀ i, camelWord u (i + 1) = title u := fun i => funext fun _ => if_neg (Nat.succ_ne_zero i)
  refine List.mapIdx_cons.trans (congrArg (lower u w :: ·) (List.ext_getElem? fun i => ?_))
  rw [List.getElem?_mapIdx, List.getElem?_map, hrest]

section Capitals

variable {s : String} (hs : ∀ c ∈ s.toList, c.toNat < 128) (hwords : ∀ w ∈ split u s, Titleable w)

include hs hwords

theorem title_words : ∀ w ∈ split u s, TitleSpec u w :=
  fun w hw => title_spec (split_isWord hs w hw) (hwords w hw)

theorem split_pascal : split u (pascal u s) = (split u s).map (title u) := by
  have hcapitalized : ∀ v ∈ ((split u s).map (title u)).map String.toList, Capitalized v := by
    intro v hv
    obtain ⟨t, ht, htoList⟩ := List.mem_map.mp hv
    obtain ⟨w, hw, rfl⟩ := List.mem_map.mp ht
    exact (title_words hs hwords w hw).capitalized_of_toList htoList
  rw [split, pascal, toList_join_flatten, splitRunes_flatten hcapitalized, map_ofList_toList]

theorem split_camel : split u (camel u s) = (split u s).mapIdx (camelWord u) := by
  have hword := split_isWord (u := u) hs
  have htitle := title_words hs hwords
  rw [camel]
  cases hsplit : split u s with
  | nil => rfl
  | cons w ws =>
      rw [hsplit, List.forall_mem_cons] at hword htitle
      have hcapitalized : ∀ v ∈ (ws.map (title u)).map String.toList, Capitalized v := by
        intro v hv
        obtain ⟨t, ht, htoList⟩ := List.mem_map.mp hv
        obtain ⟨w, hw, rfl⟩ := List.mem_map.mp ht
        exact (htitle.2 w hw).capitalized_of_toList htoList
      obtain ⟨hne, hlower⟩ := hword.1.map (f := u.toLower) fun _ => Alnum.toLower
      have hfirst : (lower u w).toList = w.toList.map u.toLower := String.toList_ofList
      rw [mapIdx_camelWord_cons, split, toList_join_flatten, List.map_cons, List.flatten_cons, hfirst,
        splitRunes_lower_flatten hne hlower hcapitalized, List.map_cons, map_ofList_toList]
      rfl

theorem map_lower_title : ((split u s).map (title u)).map (lower u) = (split u s).map (lower u) := by
  rw [List.map_map]
  refine List.map_congr_left fun w hw => ?_
  rw [Function.comp_apply, (title_words hs hwords w hw).lower_title]

theorem map_title_title : ((split u s).map (title u)).map (title u) = (split u s).map (title u) := by
  rw [List.map_map]
  refine List.map_congr_left fun w hw => ?_
  rw [Function.comp_apply, (title_words hs hwords w hw).title_title]

theorem mapIdx_camelWord_fold :
    ((split u s).mapIdx (camelWord u)).map (lower u) = (split u s).map (lower u) ∧
      ((split u s).mapIdx (camelWord u)).mapIdx (camelWord u) = (split u s).mapIdx (camelWord u) := by
  have hlower := (map_fold_case (u := u) hs).1
  have hlowerTitle := map_lower_title hs hwords
  have htitle := map_title_title hs hwords
  cases hsplit : split u s with
  | nil => exact ⟨rfl, rfl⟩
  | cons w ws =>
      simp only [hsplit, List.map_cons, List.cons.injEq] at hlower hlowerTitle htitle
      rw [mapIdx_camelWord_cons, mapIdx_camelWord_cons, List.map_cons, List.map_cons, hlower.1, hlowerTitle.2,
        htitle.2]
      exact ⟨rfl, rfl⟩

end Capitals

/-- The words of a string can be found again from their capitals. -/
theorem camel_pascal_keep_words (u : Unicode) (s : String) (hs : ∀ c ∈ s.toList, c.toNat < 128)
    (hwords : ∀ w ∈ split u s, Titleable w) :
    snake u (camel u s) = snake u s ∧ snake u (pascal u s) = snake u s ∧
      camel u (camel u s) = camel u s ∧ pascal u (pascal u s) = pascal u s := by
  obtain ⟨hcamel, hcamelCamel⟩ := mapIdx_camelWord_fold hs hwords
  have hsplitCamel := split_camel hs hwords
  have hsplitPascal := split_pascal hs hwords
  refine ⟨?_, ?_, ?_, ?_⟩
  · rw [snake, hsplitCamel, hcamel, snake]
  · rw [snake, hsplitPascal, map_lower_title hs hwords, snake]
  · rw [camel, hsplitCamel, hcamelCamel, camel]
  · rw [pascal, hsplitPascal, map_title_title hs hwords, pascal]

theorem camel_pascal_keep_words_request :
    snake .asciiOnly (camel .asciiOnly "HTTPRequest v2") = "http_request_v2" ∧
      pascal .asciiOnly (pascal .asciiOnly "HTTPRequest v2") = "HttpRequestV2" := by
  have hwords : ∀ w ∈ split .asciiOnly "HTTPRequest v2", Titleable w := by
    rw [show split .asciiOnly "HTTPRequest v2" = ["HTTP", "Request", "v2"] by decide]
    simp [Titleable, ← String.length_toList]
  have hkeep := camel_pascal_keep_words .asciiOnly "HTTPRequest v2" (by simp) hwords
  exact ⟨hkeep.1.trans (by decide), hkeep.2.2.2.trans (by decide)⟩

/-! ## Nothing is lost -/

theorem map_fst_kept (s : List Char) : (kept s).map Prod.fst = s.filter Char.isAlphanum := by
  have hfilter := List.filter_map (f := Prod.fst) (p := Char.isAlphanum) (l := s.zipIdx)
  rw [List.zipIdx_map_fst] at hfilter
  exact hfilter.symm

/-- The words have all letters and digits of a string, in their order. None is empty, and none has a place where it is
to be cut. -/
theorem split_keeps_characters (u : Unicode) (s : String) (hs : ∀ c ∈ s.toList, c.toNat < 128) :
    String.join (split u s) = String.ofList (s.toList.filter Char.isAlphanum) ∧ (∀ w ∈ split u s, w ≠ "") ∧
      ∃ ws : List (List (Char × Nat)), split u s = ws.map (fun w => String.ofList (w.map Prod.fst)) ∧
        ws.flatten = s.toList.zipIdx.filter (fun p => p.1.isAlphanum) ∧
        (∀ w ∈ ws, ∀ a b i, [(a, i), (b, i + 1)] <:+: w → a.isLower ∨ a.isDigit → ¬ b.isUpper) ∧
        ∀ w ∈ ws, ∀ a i b j c, [(a, i), (b, j), (c, j + 1)] <:+: w → a.isUpper → b.isUpper → ¬ c.isLower := by
  obtain ⟨ws, hsplit, hflatten, hne, huncut⟩ := splitRunes_traced (u := u) hs
  have hwords : split u s = ws.map (fun w => String.ofList (w.map Prod.fst)) := by
    rw [split, hsplit, List.map_map]
    rfl
  refine ⟨?_, ?_, ws, hwords, hflatten, fun w hw => (huncut w hw).no_capital, fun w hw => (huncut w hw).no_acronym⟩
  · rw [← String.toList_inj, toList_join_flatten, hwords, String.toList_ofList, ← map_fst_kept, ← hflatten,
      List.map_flatten, List.map_map]
    simp [Function.comp_def]
  · rw [hwords, List.forall_mem_map]
    intro w hw hempty
    exact hne w hw (by simpa using congrArg String.toList hempty)

theorem split_keeps_characters_request :
    String.join (split .asciiOnly "HTTPRequest_v2, a!B") = "HTTPRequestv2aB" :=
  (split_keeps_characters .asciiOnly "HTTPRequest_v2, a!B" (by simp)).1.trans (by decide)

end Gopkg.Stringcase
