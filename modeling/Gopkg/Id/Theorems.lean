import Mathlib.Tactic.IntervalCases
import Gopkg.Id.Uuid

/-!
# Theorems about UUIDs
-/

namespace Gopkg.Id

open Digits Regex RegularExpression

variable {now : UInt64} {rand : Vector UInt8 16} {src : List UInt8}

/-! ## Hexadecimal digits -/

theorem hexDigit_facts : ∀ n : Fin 16, hexValue (hexDigit n) = n ∧ hexDigit n ≠ '-' ∧
    hexDigit n ∈ "0123456789abcdefABCDEF".toList := by
  decide

theorem hexDigit_lt : ∀ n m : Fin 16, n < m → hexDigit n < hexDigit m := by
  decide

/-- The digits of a list of bytes. -/
def nibbles (src : List UInt8) : List Nat := (src.map UInt8.toNat).flatMap fun d => [d / 16, d % 16]

theorem length_nibbles (src : List UInt8) : (nibbles src).length = 2 * src.length := by
  rw [nibbles, length_pairs, List.length_map]

theorem nibbles_lt : ∀ d ∈ nibbles src, d < 16 := by
  intro d hd
  obtain ⟨n, hn, hd⟩ := List.mem_flatMap.mp hd
  obtain ⟨v, _, rfl⟩ := List.mem_map.mp hn
  have hv := v.toNat_lt
  simp only [List.mem_cons, List.not_mem_nil, or_false] at hd
  omega

theorem hexEncode_eq (src : List UInt8) : hexEncode src = (nibbles src).map hexDigit := by
  have hbyte : ∀ v : UInt8, (v >>> 4).toNat = v.toNat / 16 ∧ (v &&& 0x0F).toNat = v.toNat % 16 := by
    intro v
    constructor
    · rw [UInt8.toNat_shiftRight, Nat.shiftRight_eq_div_pow]
      rfl
    · rw [UInt8.toNat_and]
      exact Nat.and_two_pow_sub_one_eq_mod _ 4
  induction src with
  | nil => rfl
  | cons v src ih =>
      rw [hexEncode, List.flatMap_cons, (hbyte v).1, (hbyte v).2]
      exact congrArg ([hexDigit (v.toNat / 16), hexDigit (v.toNat % 16)] ++ ·) ih

theorem hexEncode_append (src src' : List UInt8) : hexEncode (src ++ src') = hexEncode src ++ hexEncode src' :=
  List.flatMap_append ..

theorem mem_hexEncode {c : Char} (hc : c ∈ hexEncode src) : ∃ n : Fin 16, hexDigit n = c := by
  rw [hexEncode_eq] at hc
  obtain ⟨n, hn, rfl⟩ := List.mem_map.mp hc
  exact ⟨⟨n, nibbles_lt n hn⟩, rfl⟩

theorem length_hexEncode (src : List UInt8) : (hexEncode src).length = 2 * src.length :=
  length_pairs ..

/-- The dashes of a UUID are not digits. -/
theorem filter_hexEncode (src : List UInt8) : (hexEncode src).filter (· ≠ '-') = hexEncode src := by
  rw [List.filter_eq_self]
  intro c hc
  obtain ⟨n, rfl⟩ := mem_hexEncode hc
  simpa using (hexDigit_facts n).2.1

theorem map_hexValue (src : List UInt8) : (hexEncode src).map hexValue = nibbles src := by
  rw [hexEncode_eq, List.map_map]
  conv_rhs => rw [← List.map_id (nibbles src)]
  refine List.map_congr_left fun n hn => ?_
  exact (hexDigit_facts ⟨n, nibbles_lt n hn⟩).1

theorem bigEndian_nibbles (src : List UInt8) : bigEndian 16 (nibbles src) = bigEndian 256 (src.map UInt8.toNat) :=
  bigEndian_pairs _

/-! ## The bytes of a UUID -/

theorem length_timeBytes (now : UInt64) : (timeBytes now).length = 6 := rfl

theorem uuidv7Bytes_toList (now : UInt64) (rand : Vector UInt8 16) :
    (uuidv7Bytes now rand).toList = timeBytes now ++ randomBytes rand := by
  apply List.ext_getElem
  · simp [timeBytes, randomBytes]
  · intro i hi _
    have hi : i < 16 := by simpa using hi
    interval_cases i <;> simp [uuidv7Bytes, timeBytes, randomBytes]

theorem bigEndian_timeBytes (h : now.toNat < 2 ^ 48) : bigEndian 256 ((timeBytes now).map UInt8.toNat) = now.toNat := by
  simp only [timeBytes, List.map_cons, List.map_nil, bigEndian_cons, bigEndian_nil, List.length_cons, List.length_nil,
    UInt64.toNat_toUInt8, UInt64.toNat_shiftRight, Nat.shiftRight_eq_div_pow]
  have hshift : (UInt64.toNat 40 % 64 = 40 ∧ UInt64.toNat 32 % 64 = 32 ∧ UInt64.toNat 24 % 64 = 24) ∧
      UInt64.toNat 16 % 64 = 16 ∧ UInt64.toNat 8 % 64 = 8 := by decide
  rw [hshift.1.1, hshift.1.2.1, hshift.1.2.2, hshift.2.1, hshift.2.2]
  omega

theorem version_byte (x : UInt8) : ((x &&& 0x0F) ||| 0x70).toNat / 16 = 7 := by
  have hshift : ((x &&& 0x0F) ||| 0x70).toNat >>> 4 = 7 := by
    rw [UInt8.toNat_or, UInt8.toNat_and, Nat.shiftRight_or_distrib, Nat.shiftRight_and_distrib]
    simp
  rwa [Nat.shiftRight_eq_div_pow] at hshift

theorem variant_byte (x : UInt8) : ((x &&& 0x3F) ||| 0x80).toNat / 64 = 2 := by
  have hshift : ((x &&& 0x3F) ||| 0x80).toNat >>> 6 = 2 := by
    rw [UInt8.toNat_or, UInt8.toNat_and, Nat.shiftRight_or_distrib, Nat.shiftRight_and_distrib]
    simp
  rwa [Nat.shiftRight_eq_div_pow] at hshift

/-! ## The text of a UUID -/

/-- The groups of a UUID, between its dashes. -/
theorem uuidv7_toList (now : UInt64) (rand : Vector UInt8 16) : (uuidv7 now rand).toList =
    hexEncode ((timeBytes now).take 4) ++ '-' :: (hexEncode ((timeBytes now).drop 4) ++ '-' ::
      (hexEncode ((randomBytes rand).take 2) ++ '-' :: (hexEncode (((randomBytes rand).drop 2).take 2) ++ '-' ::
        hexEncode ((randomBytes rand).drop 4)))) := by
  simp only [uuidv7, uuidToString, uuidv7Bytes_toList, String.toList_ofList, List.append_assoc]
  rfl

theorem uuidNumber_eq (now : UInt64) (rand : Vector UInt8 16) :
    uuidNumber (uuidv7 now rand) = bigEndian 256 ((timeBytes now ++ randomBytes rand).map UInt8.toNat) := by
  have hdigits : (uuidv7 now rand).toList.filter (· ≠ '-') = hexEncode (timeBytes now ++ randomBytes rand) := by
    rw [uuidv7_toList]
    simp only [List.filter_append, List.filter_cons, filter_hexEncode]
    simp only [ne_eq, not_true_eq_false, decide_false, Bool.false_eq_true, ↓reduceIte, ← hexEncode_append]
    rfl
  rw [uuidNumber, hdigits, map_hexValue, bigEndian_nibbles]

/-- The number up to some byte, when the rest is divided away. -/
theorem uuidNumber_div (now : UInt64) (rand : Vector UInt8 16) (k : Nat) :
    uuidNumber (uuidv7 now rand) / 256 ^ (10 - k) =
      bigEndian 256 ((timeBytes now ++ (randomBytes rand).take k).map UInt8.toNat) := by
  have hsplit : (timeBytes now ++ randomBytes rand).map UInt8.toNat =
      (timeBytes now ++ (randomBytes rand).take k).map UInt8.toNat ++ ((randomBytes rand).drop k).map UInt8.toNat := by
    rw [← List.map_append, List.append_assoc, List.take_append_drop]
  have hlength : (((randomBytes rand).drop k).map UInt8.toNat).length = 10 - k := by
    simp [randomBytes]
  have hbytes : ∀ d ∈ ((randomBytes rand).drop k).map UInt8.toNat, d < 256 := by
    intro d hd
    obtain ⟨v, _, rfl⟩ := List.mem_map.mp hd
    exact v.toNat_lt
  rw [uuidNumber_eq, hsplit, ← hlength]
  exact bigEndian_append_div (by decide) hbytes

theorem uuidv7_time (h : now.toNat < 2 ^ 48) (rand : Vector UInt8 16) :
    uuidNumber (uuidv7 now rand) / 2 ^ 80 = now.toNat := by
  have hdiv := uuidNumber_div now rand 0
  rwa [List.take_zero, List.append_nil, bigEndian_timeBytes h] at hdiv

theorem uuidv7_version (now : UInt64) (rand : Vector UInt8 16) : uuidNumber (uuidv7 now rand) / 2 ^ 76 % 16 = 7 := by
  have hdiv := uuidNumber_div now rand 1
  have hbyte := version_byte rand[6]
  rw [List.map_append, bigEndian_append] at hdiv
  simp only [randomBytes, List.take_succ_cons, List.take_zero, List.map_cons, List.map_nil, bigEndian_cons,
    bigEndian_nil, List.length_cons, List.length_nil] at hdiv
  omega

theorem uuidv7_variant (now : UInt64) (rand : Vector UInt8 16) : uuidNumber (uuidv7 now rand) / 2 ^ 62 % 4 = 2 := by
  have hdiv := uuidNumber_div now rand 3
  have hbyte := variant_byte rand[8]
  have hlt := ((rand[8] &&& 0x3F) ||| 0x80).toNat_lt
  rw [List.map_append, bigEndian_append] at hdiv
  simp only [randomBytes, List.take_succ_cons, List.take_zero, List.map_cons, List.map_nil, bigEndian_cons,
    bigEndian_nil, List.length_cons, List.length_nil] at hdiv
  omega

/-! ## Validation and order -/

theorem hexEncode_matches {n : Nat} (h : 2 * src.length = n) : hexEncode src ∈ (hexClass ^ n).matches' := by
  have hall : ∀ c ∈ hexEncode src, c ∈ "0123456789abcdefABCDEF".toList := by
    intro c hc
    obtain ⟨n, rfl⟩ := mem_hexEncode hc
    exact (hexDigit_facts n).2.2
  have hmem := mem_oneOf_pow hall
  rwa [length_hexEncode, h] at hmem

theorem mem_dash {P Q : RegularExpression Char} {x y : List Char} (hx : x ∈ P.matches') (hy : y ∈ Q.matches') :
    x ++ '-' :: y ∈ (P * (char '-' * Q)).matches' :=
  mem_append hx (mem_append mem_char hy)

/-- A group of four digits whose first is of a class of its own. -/
theorem group_matches {cs : List Char} (x y : UInt8) (h : hexDigit (x.toNat / 16) ∈ cs) :
    hexEncode [x, y] ∈ (oneOf cs * hexClass ^ 3).matches' := by
  have hall : ∀ c ∈ [hexDigit (x.toNat % 16), hexDigit (y.toNat / 16), hexDigit (y.toNat % 16)],
      c ∈ "0123456789abcdefABCDEF".toList := by
    intro c hc
    have hmem : c ∈ hexEncode [x, y] := by
      rw [hexEncode_eq]
      exact List.mem_cons_of_mem _ hc
    obtain ⟨n, rfl⟩ := mem_hexEncode hmem
    exact (hexDigit_facts n).2.2
  rw [hexEncode_eq]
  exact mem_append (mem_oneOf h) (mem_oneOf_pow hall)

theorem uuidv7_matches (now : UInt64) (rand : Vector UInt8 16) :
    (uuidv7 now rand).toList ∈ uuidRe.matches' := by
  have hversion : hexDigit (((rand[6] &&& 0x0F) ||| 0x70).toNat / 16) ∈ "12345678".toList := by
    rw [version_byte]
    decide
  have hvariant : hexDigit (((rand[8] &&& 0x3F) ||| 0x80).toNat / 16) ∈ "89abAB".toList := by
    have hbyte := variant_byte rand[8]
    have hdigit : ∀ n : Fin 16, n.val / 4 = 2 → hexDigit n ∈ "89abAB".toList := by decide
    have hlt := ((rand[8] &&& 0x3F) ||| 0x80).toNat_lt
    have hnibble : ((rand[8] &&& 0x3F) ||| 0x80).toNat / 16 < 16 := by omega
    refine hdigit ⟨_, hnibble⟩ ?_
    rw [Nat.div_div_eq_div_mul, hbyte]
  rw [uuidv7_toList]
  exact mem_dash (hexEncode_matches rfl) (mem_dash (hexEncode_matches rfl) (mem_dash (group_matches _ _ hversion)
    (mem_dash (group_matches _ _ hvariant) (hexEncode_matches rfl))))

/-- The digits of an earlier time come first. -/
theorem hexEncode_timeBytes_lex {now' : UInt64} (h : now.toNat < 2 ^ 48) (h' : now'.toNat < 2 ^ 48)
    (hlt : now.toNat < now'.toNat) : List.Lex (· < ·) (hexEncode (timeBytes now)) (hexEncode (timeBytes now')) := by
  have hlex : List.Lex (· < ·) (nibbles (timeBytes now)) (nibbles (timeBytes now')) := by
    refine lex_of_bigEndian_lt (by decide) nibbles_lt nibbles_lt ?_ ?_
    · rw [length_nibbles, length_nibbles, length_timeBytes, length_timeBytes]
    · rwa [bigEndian_nibbles, bigEndian_nibbles, bigEndian_timeBytes h, bigEndian_timeBytes h']
  rw [hexEncode_eq, hexEncode_eq]
  refine lex_map (b := 16) (fun d d' hd hd' => ?_) nibbles_lt hlex
  exact hexDigit_lt ⟨d, Nat.lt_trans hd hd'⟩ ⟨d', hd'⟩ hd

/-- The string passes validation. The number it stands for begins with the time, and has its version and variant; and
an earlier time gives a string that comes first, whatever the random bytes are. -/
theorem uuidv7_valid_and_ordered (now : UInt64) (rand : Vector UInt8 16) (h : now.toNat < 2 ^ 48) :
    validateUUID (uuidv7 now rand) = none ∧
    uuidNumber (uuidv7 now rand) / 2 ^ 80 = now.toNat ∧
    uuidNumber (uuidv7 now rand) / 2 ^ 76 % 16 = 7 ∧
    uuidNumber (uuidv7 now rand) / 2 ^ 62 % 4 = 2 ∧
    ∀ (now' : UInt64) (rand' : Vector UInt8 16), now'.toNat < 2 ^ 48 → now < now' →
      uuidv7 now rand < uuidv7 now' rand' := by
  refine ⟨?_, uuidv7_time h rand, uuidv7_version now rand, uuidv7_variant now rand, ?_⟩
  · have hmatch := (rmatch_iff_matches' uuidRe (uuidv7 now rand).toList).mpr (uuidv7_matches now rand)
    rw [validateUUID, hmatch]
    rfl
  · intro now' rand' h' hlt
    have hlex := hexEncode_timeBytes_lex h h' (UInt64.lt_iff_toNat_lt.mp hlt)
    have hsplit : ∀ t : UInt64, hexEncode (timeBytes t) = hexEncode ((timeBytes t).take 4) ++
        hexEncode ((timeBytes t).drop 4) := fun t => hexEncode_append ((timeBytes t).take 4) ((timeBytes t).drop 4)
    rw [String.lt_iff, uuidv7_toList, uuidv7_toList]
    refine lex_insert '-' ?_ ?_
    · rw [length_hexEncode, length_hexEncode, List.length_take, List.length_take, length_timeBytes, length_timeBytes]
    · rw [← List.append_assoc, ← List.append_assoc, ← hsplit, ← hsplit]
      refine lex_append ?_ hlex _ _
      rw [length_hexEncode, length_hexEncode, length_timeBytes, length_timeBytes]

theorem uuidv7_valid_and_ordered_epoch :
    (0 : UInt64).toNat < 2 ^ 48 ∧ validateUUID (uuidv7 0 (.replicate 16 0xFF)) = none ∧
      uuidv7 0 (.replicate 16 0xFF) < uuidv7 1 (.replicate 16 0) :=
  have h := uuidv7_valid_and_ordered 0 (.replicate 16 0xFF) (by decide)
  ⟨by decide, h.1, h.2.2.2.2 1 (.replicate 16 0) (by decide) (by decide)⟩

end Gopkg.Id
