import Gopkg.Sqlbuilder.Query

/-!
# The placeholders of a clause
-/

namespace Gopkg.Sqlbuilder

variable {V : Type} {cond : Condition V} {cs ds : List Char} {n : Nat}

theorem placeholdersIn_clean_append (h : '$' ∉ cs) (ds : List Char) :
    placeholdersIn (cs ++ ds) = placeholdersIn ds := by
  induction cs with
  | nil => rfl
  | cons c cs ih =>
      rw [List.mem_cons, not_or] at h
      rw [List.cons_append, placeholdersIn, if_neg fun hc => h.1 hc.1.symm]
      exact ih h.2

theorem dollar_not_mem_toDigits : '$' ∉ Nat.toDigits 10 n := by
  intro hmem
  exact absurd (Nat.isDigit_of_mem_toDigits (by decide) (by decide) hmem) (by decide)

/-- The first placeholder is read up to the text that follows its numeral. -/
theorem placeholdersIn_mention (hcs : '$' ∉ cs) (n : Nat) (hds : ds.head?.all fun d => !d.isDigit) :
    placeholdersIn (cs ++ '$' :: (Nat.toDigits 10 n ++ ds)) = n :: placeholdersIn ds := by
  have hrest : ds.takeWhile Char.isDigit = [] := by
    cases ds with
    | nil => rfl
    | cons d ds => simpa [List.takeWhile_cons] using hds
  have hdigits : (Nat.toDigits 10 n ++ ds).takeWhile Char.isDigit = Nat.toDigits 10 n := by
    rw [List.takeWhile_append_of_pos fun c hc => Nat.isDigit_of_mem_toDigits (by decide) (by decide) hc, hrest,
      List.append_nil]
  rw [placeholdersIn_clean_append hcs, placeholdersIn, hdigits, if_pos ⟨rfl, Nat.toDigits_ne_nil⟩,
    Nat.ofDigitChars_toDigits (by decide) (by decide), placeholdersIn_clean_append dollar_not_mem_toDigits]

theorem placeholders_compare {col op : String} (hcol : '$' ∉ col.toList) (hop : '$' ∉ op.toList) (v : Value V) :
    placeholders ((Condition.compare col op v).render n) = [n] := by
  have htext : ((Condition.compare col op v).render n).toList =
      (col.toList ++ ' ' :: (op.toList ++ [' '])) ++ '$' :: (Nat.toDigits 10 n ++ []) := by
    simp [Condition.render]
    rfl
  rw [placeholders, htext]
  exact placeholdersIn_mention (by simp [hcol, hop]) n rfl

/-- Every alternative mentions the same value. -/
theorem placeholdersIn_alternatives (cols : List String) (hne : cols ≠ []) (hcols : ∀ col ∈ cols, '$' ∉ col.toList) :
    placeholdersIn ((" OR ".intercalate (cols.map fun col => s!"{col} ILIKE ${n}")).toList ++ [')']) =
      List.replicate cols.length n := by
  induction cols with
  | nil => exact absurd rfl hne
  | cons col cols ih =>
      have hcol : '$' ∉ col.toList ++ " ILIKE ".toList := by
        rw [List.mem_append, not_or]
        exact ⟨hcols col List.mem_cons_self, by decide⟩
      have htext : (s!"{col} ILIKE ${n}").toList = (col.toList ++ " ILIKE ".toList) ++ '$' :: Nat.toDigits 10 n := by
        simp
        rfl
      cases cols with
      | nil =>
          simp only [List.map_cons, List.map_nil, String.intercalate_singleton, htext, List.append_assoc,
            List.cons_append]
          rw [← List.append_assoc, placeholdersIn_mention hcol n rfl]
          rfl
      | cons col' cols =>
          have ih := ih (List.cons_ne_nil _ _) fun c hc => hcols c (List.mem_cons_of_mem _ hc)
          rw [List.map_cons] at ih
          simp only [List.map_cons, String.intercalate_cons_cons, String.toList_append, htext, List.append_assoc,
            List.cons_append]
          rw [← List.append_assoc, placeholdersIn_mention hcol n rfl, placeholdersIn_clean_append (by decide), ih]
          rfl

/-- A clause mentions its own value, and no other. -/
theorem mem_placeholders_render (hclean : cond.Clean) {k : Nat} : k ∈ placeholders (cond.render n) ↔ k = n := by
  cases cond with
  | compare col op v => rw [placeholders_compare hclean.1 hclean.2, List.mem_singleton]
  | anyLike cols pattern =>
      obtain ⟨hne, hcols⟩ := hclean
      have htext : ((Condition.anyLike (V := V) cols pattern).render n).toList =
          ['('] ++ ((" OR ".intercalate (cols.map fun col => s!"{col} ILIKE ${n}")).toList ++ [')']) := by
        simp [Condition.render]
      rw [placeholders, htext, placeholdersIn_clean_append (by decide), placeholdersIn_alternatives cols hne hcols,
        List.mem_replicate]
      simp [hne]

end Gopkg.Sqlbuilder
