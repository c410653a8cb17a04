import Gopkg.Paymentgateway.Callback

/-!
# The last segment of a path

Which reference `ExtractReferenceFromPath` takes out of a path.
-/

namespace Gopkg.Paymentgateway

/-- What stands between the slashes, where something does. -/
def segments (path : List Char) : List (List Char) := (path.splitOn '/').filter (· ≠ [])

/-- The text of an error that wraps `ErrInvalidRequest`. -/
def InvalidRequest (err : String) : Prop := ∃ detail, err = "invalid request: " ++ detail

/-- The last segment of the path before the query is returned, and an error exactly when there is no segment. -/
structure ReturnsLastSegment (urlPath : String) : Prop where
  ok : ∀ reference, extractReferenceFromPath urlPath = .ok reference ↔
    (segments (splitQuery urlPath.toList).1).getLast? = some reference.toList
  error : (∃ err, extractReferenceFromPath urlPath = .error err ∧ InvalidRequest err) ↔
    segments (splitQuery urlPath.toList).1 = []

variable {path l : List Char} {urlPath : String}

/-! ## Segments -/

theorem segments_append (l path : List Char) : segments (l ++ '/' :: path) = segments l ++ segments path := by
  rw [segments, List.splitOn, List.splitOnP_append_cons _ _ (by decide), List.filter_append]
  rfl

theorem segments_of_no_slash (h : '/' ∉ path) : segments path = [path].filter (· ≠ []) := by
  rw [segments, List.splitOn, List.splitOnP_eq_singleton]
  intro c hc
  exact beq_false_of_ne fun heq => h (heq ▸ hc)

theorem segments_trim (path : List Char) :
    segments (path.rdropWhile (fun c => decide (c = '/'))) = segments path := by
  induction path using List.reverseRecOn with
  | nil => rfl
  | append_singleton l c ih =>
      by_cases hc : c = '/'
      · subst hc
        rw [List.rdropWhile_concat_pos _ _ _ (by decide), ih, segments_append]
        exact (List.append_nil _).symm
      · rw [List.rdropWhile_concat_neg _ _ _ (by simpa using hc)]

theorem exists_last_slash (path : List Char) : '/' ∉ path ∨ ∃ l r, path = l ++ '/' :: r ∧ '/' ∉ r := by
  induction path using List.reverseRecOn with
  | nil => exact .inl List.not_mem_nil
  | append_singleton l c ih =>
      by_cases hc : c = '/'
      · exact .inr ⟨l, [], by rw [hc], List.not_mem_nil⟩
      · rcases ih with hnone | ⟨l, r, rfl, hr⟩
        · exact .inl (by simp [hnone, Ne.symm hc])
        · exact .inr ⟨l, r ++ [c], by simp, by simp [hr, Ne.symm hc]⟩

/-- What follows the last slash is the last segment, unless it is empty. -/
theorem segments_getLast? (h : path.rtakeWhile (fun c => decide (c ≠ '/')) ≠ []) :
    (segments path).getLast? = some (path.rtakeWhile (fun c => decide (c ≠ '/'))) := by
  rcases exists_last_slash path with hnone | ⟨l, r, rfl, hr⟩
  · have hall : path.rtakeWhile (fun c => decide (c ≠ '/')) = path :=
      List.rtakeWhile_eq_self_iff.mpr fun c hc => decide_eq_true fun heq => hnone (heq ▸ hc)
    rw [hall] at h ⊢
    simp [segments_of_no_slash hnone, h]
  · rw [rtakeWhile_reference hr] at h ⊢
    simp [segments_append, segments_of_no_slash hr, h]

theorem rtakeWhile_eq_nil (path : List Char) : path.rtakeWhile (fun c => decide (c ≠ '/')) = [] ↔
    path = [] ∨ path.getLast? = some '/' := by
  rcases List.eq_nil_or_concat path with rfl | ⟨l, c, rfl⟩
  · simp
  · by_cases hc : c = '/' <;> simp [hc]

/-! ## The function -/

/-- The steps after the query is cut off. -/
def lastPart (path : List Char) : Except String String :=
  if path.rtakeWhile (fun c => decide (c ≠ '/')) = [] then .error "invalid request: no trailing segment"
  else .ok (String.ofList (path.rtakeWhile (fun c => decide (c ≠ '/'))))

theorem extractReferenceFromPath_of_no_query (h : '?' ∉ urlPath.toList) : extractReferenceFromPath urlPath =
    if urlPath.toList.rdropWhile (fun c => decide (c = '/')) = [] then .error "invalid request: empty path"
    else lastPart (urlPath.toList.rdropWhile (fun c => decide (c = '/'))) := by
  have htrim : '?' ∉ urlPath.toList.rdropWhile (fun c => decide (c = '/')) :=
    fun hmem => h ((List.rdropWhile_prefix _ _).subset hmem)
  have hpath := splitQuery_fst htrim (.inl rfl)
  rw [List.append_nil] at hpath
  simp only [extractReferenceFromPath, hpath, lastPart]

theorem extractReferenceFromPath_of_query {t : List Char} (h : '?' ∉ path) (hurl : urlPath.toList = path ++ '?' :: t) :
    extractReferenceFromPath urlPath = lastPart path := by
  obtain ⟨t', ht'⟩ := rdropWhile_query path t
  simp only [extractReferenceFromPath, hurl, ht', splitQuery_fst h (.inr ⟨t', rfl⟩), lastPart]
  rw [if_neg (by simp)]

/-- Where the last part is not empty the last segment is returned. -/
theorem returnsLastSegment_of_lastPart (h : l.rtakeWhile (fun c => decide (c ≠ '/')) ≠ [])
    (hextract : extractReferenceFromPath urlPath = lastPart l)
    (hsegments : segments l = segments (splitQuery urlPath.toList).1) : ReturnsLastSegment urlPath := by
  rw [lastPart, if_neg h] at hextract
  constructor
  · intro reference
    rw [hextract, ← hsegments, segments_getLast? h, Except.ok.injEq, Option.some.injEq, ← String.toList_inj,
      String.toList_ofList]
  · rw [hextract, ← hsegments]
    refine ⟨fun ⟨_, herr, _⟩ => (nomatch herr), fun hnil => ?_⟩
    have hlast := segments_getLast? h
    rw [hnil] at hlast
    cases hlast

/-- Where an error is returned there must not be a segment. -/
theorem returnsLastSegment_iff_of_error (detail : String)
    (hextract : extractReferenceFromPath urlPath = .error ("invalid request: " ++ detail)) :
    ReturnsLastSegment urlPath ↔ segments (splitQuery urlPath.toList).1 = [] := by
  refine ⟨fun h => h.error.mp ⟨_, hextract, detail, rfl⟩, fun hnil => ⟨fun reference => ?_, ?_⟩⟩
  · rw [hextract, hnil]
    exact ⟨nofun, nofun⟩
  · exact ⟨fun _ => hnil, fun _ => ⟨_, hextract, detail, rfl⟩⟩

theorem returnsLastSegment_of_no_query (hquery : '?' ∉ urlPath.toList) : ReturnsLastSegment urlPath := by
  have hextract := extractReferenceFromPath_of_no_query hquery
  have hbefore := splitQuery_fst hquery (.inl rfl)
  rw [List.append_nil] at hbefore
  have htrim := segments_trim urlPath.toList
  by_cases hnil : urlPath.toList.rdropWhile (fun c => decide (c = '/')) = []
  · rw [if_pos hnil] at hextract
    rw [returnsLastSegment_iff_of_error "empty path" hextract, hbefore, ← htrim, hnil]
    rfl
  · rw [if_neg hnil] at hextract
    refine returnsLastSegment_of_lastPart (fun hpart => ?_) hextract (by rw [hbefore, htrim])
    have hlast := ((rtakeWhile_eq_nil _).mp hpart).resolve_left hnil
    rw [List.getLast?_eq_some_getLast hnil, Option.some.injEq] at hlast
    exact List.rdropWhile_last_not _ _ hnil (decide_eq_true hlast)

/-- The last segment is returned, or an error if there is none, except that a query after a path with slashes at its end
hides the last segment. -/
theorem last_segment_iff (urlPath : String) : ReturnsLastSegment urlPath ↔
    '?' ∉ urlPath.toList ∨ (splitQuery urlPath.toList).1.getLast? ≠ some '/' ∨
      segments (splitQuery urlPath.toList).1 = [] := by
  by_cases hquery : '?' ∈ urlPath.toList
  · obtain ⟨path, t, hurl, hpath⟩ := List.eq_append_cons_of_mem hquery
    have hextract := extractReferenceFromPath_of_query hpath hurl
    have hbefore : (splitQuery urlPath.toList).1 = path := hurl ▸ splitQuery_fst hpath (.inr ⟨t, rfl⟩)
    by_cases hpart : path.rtakeWhile (fun c => decide (c ≠ '/')) = []
    · rw [lastPart, if_pos hpart] at hextract
      rw [returnsLastSegment_iff_of_error "no trailing segment" hextract, hbefore]
      refine ⟨fun hnil => .inr (.inr hnil), ?_⟩
      rintro (hnone | hlast | hnil)
      · exact absurd hquery hnone
      · rw [((rtakeWhile_eq_nil path).mp hpart).resolve_right hlast]
        rfl
      · exact hnil
    · rw [hbefore]
      refine iff_of_true (returnsLastSegment_of_lastPart hpart hextract (by rw [hbefore])) (.inr (.inl fun hlast => ?_))
      exact hpart ((rtakeWhile_eq_nil path).mpr (.inr hlast))
  · exact iff_of_true (returnsLastSegment_of_no_query hquery) (.inl hquery)

theorem slash_before_query_hides_reference :
    extractReferenceFromPath "/pay/ref/?x=1" = .error "invalid request: no trailing segment" ∧
      (segments (splitQuery "/pay/ref/?x=1".toList).1).getLast? = some "ref".toList := by
  decide

end Gopkg.Paymentgateway
