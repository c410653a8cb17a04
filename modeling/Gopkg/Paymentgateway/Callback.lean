import Mathlib.Data.List.DropRight

/-!
# Callback references

The references that `financial/paymentgateway/paymentgateway.go` puts into a callback URL, and takes out of its path.
-/

namespace Gopkg.Paymentgateway

/-- The URL before its first `?`, and from there on. -/
def splitQuery (url : List Char) : List Char × List Char := (url.takeWhile (· ≠ '?'), url.dropWhile (· ≠ '?'))

/-- `strings.TrimSuffix(path, "/")` -/
def trimSlash (path : List Char) : List Char := if path.getLast? = some '/' then path.dropLast else path

def buildCallbackURLWithReference (baseURL reference : String) : String :=
  if baseURL = "" then ""
  else
    let (path, query) := splitQuery baseURL.toList
    String.ofList (trimSlash path) ++ "/" ++ reference ++ String.ofList query

def extractReferenceFromPath (urlPath : String) : Except String String :=
  let p := urlPath.toList.rdropWhile (· = '/')
  if p = [] then .error "invalid request: empty path"
  else
    let p := (splitQuery p).1
    -- after the last slash, or all of it
    let p := p.rtakeWhile (· ≠ '/')
    if p = [] then .error "invalid request: no trailing segment" else .ok (String.ofList p)

variable {path reference query : List Char}

/-- Slashes at the end of the query are lost, but no more than that. -/
theorem rdropWhile_query (l t : List Char) :
    ∃ t', (l ++ '?' :: t).rdropWhile (fun c => decide (c = '/')) = l ++ '?' :: t' := by
  induction t using List.reverseRecOn with
  | nil => exact ⟨[], List.rdropWhile_concat_neg _ _ _ (by decide)⟩
  | append_singleton t c ih =>
      rw [← List.cons_append, ← List.append_assoc]
      by_cases hc : c = '/'
      · rwa [List.rdropWhile_concat_pos _ _ _ (by simpa using hc)]
      · exact ⟨t ++ [c], by rw [List.rdropWhile_concat_neg _ _ _ (by simpa using hc)]; simp⟩

theorem rdropWhile_reference (path : List Char) (hne : reference ≠ []) (hslash : '/' ∉ reference) :
    (path ++ '/' :: reference).rdropWhile (fun c => decide (c = '/')) = path ++ '/' :: reference := by
  obtain ⟨r, c, rfl⟩ := (List.eq_nil_or_concat reference).resolve_left hne
  have hc : c ≠ '/' := by
    rintro rfl
    exact hslash (by simp)
  rw [List.concat_eq_append, ← List.cons_append, ← List.append_assoc]
  exact List.rdropWhile_concat_neg _ _ _ (by simpa using hc)

/-- Taking out the path of a URL with a query, or without one. -/
theorem splitQuery_fst (hpath : '?' ∉ path) (hquery : query = [] ∨ ∃ t, query = '?' :: t) :
    (splitQuery (path ++ query)).1 = path := by
  have hall : ∀ c ∈ path, decide (c ≠ '?') = true := fun c hc => decide_eq_true fun heq => hpath (heq ▸ hc)
  rw [splitQuery, List.takeWhile_append_of_pos hall]
  rcases hquery with rfl | ⟨t, rfl⟩ <;> simp

theorem rtakeWhile_reference (hslash : '/' ∉ reference) :
    (path ++ '/' :: reference).rtakeWhile (fun c => decide (c ≠ '/')) = reference := by
  have hall : ∀ c ∈ reference.reverse, decide (c ≠ '/') = true :=
    fun c hc => decide_eq_true fun heq => hslash (heq ▸ List.mem_reverse.mp hc)
  rw [List.rtakeWhile, List.reverse_append, List.reverse_cons, List.append_assoc, List.takeWhile_append_of_pos hall]
  simp

/-- The path before the query has none of it. -/
theorem splitQuery_clean (url : List Char) : '?' ∉ trimSlash (splitQuery url).1 := by
  have hpath : '?' ∉ (splitQuery url).1 := fun hmem => by simpa using List.mem_takeWhile_imp hmem
  rw [trimSlash]
  split
  · exact fun hmem => hpath (List.dropLast_subset _ hmem)
  · exact hpath

theorem splitQuery_snd (url : List Char) : (splitQuery url).2 = [] ∨ ∃ t, (splitQuery url).2 = '?' :: t := by
  cases h : (splitQuery url).2 with
  | nil => exact .inl rfl
  | cons c t =>
      have hhead := List.head?_dropWhile_not (fun c => decide (c ≠ '?')) url
      rw [show url.dropWhile (fun c => decide (c ≠ '?')) = c :: t from h] at hhead
      exact .inr ⟨t, by simpa using hhead⟩

theorem extractReferenceFromPath_eq (hquestion : '?' ∉ path ++ '/' :: reference) (hne : reference ≠ [])
    (hslash : '/' ∉ reference) (hquery : query = [] ∨ ∃ t, query = '?' :: t) :
    extractReferenceFromPath (String.ofList (path ++ '/' :: reference ++ query)) = .ok (String.ofList reference) := by
  obtain ⟨query', htrim, hquery'⟩ : ∃ query',
      (path ++ '/' :: reference ++ query).rdropWhile (fun c => decide (c = '/')) =
        path ++ '/' :: reference ++ query' ∧ (query' = [] ∨ ∃ t, query' = '?' :: t) := by
    rcases hquery with rfl | ⟨t, rfl⟩
    · rw [List.append_nil, rdropWhile_reference path hne hslash]
      exact ⟨[], (List.append_nil _).symm, .inl rfl⟩
    · obtain ⟨t', ht'⟩ := rdropWhile_query (path ++ '/' :: reference) t
      exact ⟨'?' :: t', ht', .inr ⟨t', rfl⟩⟩
  unfold extractReferenceFromPath
  simp only [String.toList_ofList, htrim, splitQuery_fst hquestion hquery', rtakeWhile_reference hslash]
  rw [if_neg (by simp), if_neg hne]

/-- A reference without `/` and `?` is found again in the URL it was put into, and the URL keeps its query. -/
theorem reference_round_trip (baseURL reference : String) (hbase : baseURL ≠ "") (hne : reference ≠ "")
    (hclean : '/' ∉ reference.toList ∧ '?' ∉ reference.toList) :
    extractReferenceFromPath (buildCallbackURLWithReference baseURL reference) = .ok reference ∧
      baseURL.toList.dropWhile (· ≠ '?') <:+ (buildCallbackURLWithReference baseURL reference).toList := by
  have hbuild : buildCallbackURLWithReference baseURL reference = String.ofList
      (trimSlash (splitQuery baseURL.toList).1 ++ '/' :: reference.toList ++ (splitQuery baseURL.toList).2) := by
    rw [buildCallbackURLWithReference, if_neg hbase, ← String.toList_inj]
    simp
  rw [hbuild]
  constructor
  · have hquestion : '?' ∉ trimSlash (splitQuery baseURL.toList).1 ++ '/' :: reference.toList := by
      simp [splitQuery_clean, hclean.2]
    have hne' : reference.toList ≠ [] := fun h => hne (String.toList_eq_nil_iff.mp h)
    rw [extractReferenceFromPath_eq hquestion hne' hclean.1 (splitQuery_snd _), String.ofList_toList]
  · rw [String.toList_ofList]
    exact List.suffix_append ..

theorem reference_round_trip_query :
    extractReferenceFromPath (buildCallbackURLWithReference "https://x/cb/?a=1" "ref-7") = .ok "ref-7" :=
  (reference_round_trip "https://x/cb/?a=1" "ref-7" (by decide) (by decide) (by decide)).1

end Gopkg.Paymentgateway
