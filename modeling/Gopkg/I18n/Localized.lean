import Mathlib.Data.Countable.Basic
import Mathlib.Data.Finmap
import Mathlib.Logic.Encodable.Basic
import Mathlib.Logic.Equiv.Multiset

/-!
# Localized strings

`i18n/localized.go`: a map from languages to texts that is stored as JSON.
-/

namespace Gopkg.I18n

abbrev Texts := Finmap fun _ : String => String

/-- The nil map is `none`. -/
abbrev LocalizedString := Option Texts

/-- The entries, none of them in the nil map. -/
def LocalizedString.texts (ls : LocalizedString) : Texts := ls.getD ∅

/-- What `encoding/json` finds in a document that is to be stored in a map of strings. -/
inductive Document where
  -- Not JSON, or not an object: nothing is stored.
  | invalid (err : String)
  | null
  -- What is stored for the entries of an object, and the error if there is one that is no string. The empty text is
  -- stored for such an entry.
  | object (entries : Texts) (err : Option String)

/-- The bytes of the empty object. -/
def emptyObject : List UInt8 := [0x7B, 0x7D]

/-- `encoding/json` on maps of strings. A Go string is its bytes. -/
structure Json where
  marshal : Texts → List UInt8
  decode : List UInt8 → Document
  decode_marshal : ∀ m, decode (marshal m) = .object m none
  decode_empty : decode emptyObject = .object ∅ none

/-- `json.Unmarshal(data, ls)`, with what `ls` holds afterwards. A map that is not nil is reused. -/
def Json.unmarshal (json : Json) (data : List UInt8) (ls : LocalizedString) : LocalizedString × Option String :=
  match json.decode data with
  | .invalid err => (ls, some err)
  | .null => (none, none)
  | .object entries err => (some (entries ∪ ls.texts), err)

/-- A value of a database driver. -/
inductive Source where
  | nil
  | bytes (b : List UInt8)
  | string (s : List UInt8)
  | other (type : String)

/-- What the destination holds afterwards, and the error. -/
def scan (json : Json) (src : Source) (ls : LocalizedString) : LocalizedString × Option String :=
  match src with
  | .nil => (some ∅, none)
  | .bytes v => json.unmarshal v ls
  | .string v => json.unmarshal v ls
  | .other type => (ls, some s!"unsupported type for LocalizedString: {type}")

def value (json : Json) (ls : LocalizedString) : Source :=
  match ls with
  | none => .string emptyObject
  | some m => .bytes (json.marshal m)

/-! ## Round trip -/

/-- The new entries are laid over those that were there. -/
theorem scan_value (json : Json) (v d : LocalizedString) :
    scan json (value json v) d = (some (v.texts ∪ d.texts), none) := by
  cases v with
  | none => simp [value, scan, Json.unmarshal, json.decode_empty, LocalizedString.texts]
  | some m => simp [value, scan, Json.unmarshal, json.decode_marshal, LocalizedString.texts]

theorem union_eq_left_iff (m d : Texts) : m ∪ d = m ↔ ∀ k ∈ d, k ∈ m := by
  constructor
  · intro h k hk
    rw [← h]
    exact Finmap.mem_union.mpr (.inr hk)
  · intro h
    apply Finmap.ext_lookup
    intro k
    by_cases hk : k ∈ m
    · exact Finmap.lookup_union_left hk
    · rw [Finmap.lookup_union_right hk, Finmap.lookup_eq_none.mpr hk, Finmap.lookup_eq_none]
      exact fun hd => hk (h k hd)

/-- What is asked of `encoding/json` can be had: there are as many documents as maps. -/
instance : Nonempty Json := by
  have : Countable Char := Function.Injective.countable fun _ _ => Char.toNat_inj.mp
  have : Countable String := Function.Injective.countable fun _ _ => String.toList_inj.mp
  have : Countable Texts := Function.Injective.countable fun _ _ => Finmap.ext
  obtain ⟨number, hnumber⟩ := exists_injective_nat Texts
  classical
  let marshal : Texts → List UInt8 := fun m => if m = ∅ then emptyObject else List.replicate (number m) 0
  have hne : ∀ n, List.replicate n (0 : UInt8) ≠ emptyObject := by
    intro n h
    exact absurd (List.eq_of_mem_replicate (h ▸ List.mem_cons_self : 0x7B ∈ List.replicate n (0 : UInt8))) (by decide)
  have hinj : Function.Injective marshal := by
    intro m m' h
    by_cases hm : m = ∅ <;> by_cases hm' : m' = ∅ <;> simp only [marshal, hm, hm', ↓reduceIte] at h
    · rw [hm, hm']
    · exact absurd h.symm (hne _)
    · exact absurd h (hne _)
    · exact hnumber (by simpa using congrArg List.length h)
  let decode : List UInt8 → Document := fun data =>
    if h : ∃ m, marshal m = data then .object h.choose none else .invalid "invalid"
  have hdecode : ∀ m, decode (marshal m) = .object m none := by
    intro m
    have h : ∃ m', marshal m' = marshal m := ⟨m, rfl⟩
    simp only [decode, dif_pos h, hinj h.choose_spec]
  have hempty : marshal ∅ = emptyObject := if_pos rfl
  exact ⟨⟨marshal, decode, hdecode, hempty ▸ hdecode ∅⟩⟩

/-- A value comes back from the database exactly when the destination held no language that the value lacks. -/
theorem scan_restores_iff_covered (json : Json) (v d : LocalizedString) :
    ((scan json (value json v) d).2 = none ∧ (scan json (value json v) d).1.texts = v.texts ∧
      ∀ data, scan json (.string data) d = scan json (.bytes data) d) ↔ ∀ k ∈ d.texts, k ∈ v.texts := by
  rw [scan_value, ← union_eq_left_iff]
  exact ⟨fun h => h.2.1, fun h => ⟨rfl, h, fun _ => rfl⟩⟩

/-- A row without "ar" read into a variable that still holds the one of the row before. -/
theorem scan_keeps_old_language : Nonempty Json ∧ ∀ json : Json,
    let v : LocalizedString := some (Finmap.singleton "en" "Hi")
    let d : LocalizedString := some (Finmap.singleton "ar" "old")
    (scan json (value json v) d).1.texts.lookup "ar" = some "old" ∧ v.texts.lookup "ar" = none ∧
      (scan json (value json v) d).1.texts ≠ v.texts := by
  refine ⟨inferInstance, ?_⟩
  intro json v d
  have hold : (scan json (value json v) d).1.texts.lookup "ar" = some "old" := by
    rw [scan_value]
    decide
  have hnew : v.texts.lookup "ar" = none := by decide
  refine ⟨hold, hnew, fun h => ?_⟩
  rw [h, hnew] at hold
  cases hold

end Gopkg.I18n
