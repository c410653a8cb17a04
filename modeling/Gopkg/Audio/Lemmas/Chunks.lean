import Mathlib.Algebra.Ring.Nat
import Gopkg.Audio.Codec

/-!
# Converting a stream piece by piece

`PCM16LE24kToMulaw8k` makes one byte of six and drops what is left. For which lengths of the pieces of a
stream does it not matter whether they are converted one by one or together?
-/

namespace Gopkg.Audio

/-! ## Groups of six bytes -/

theorem convert_group (a b c d e f : UInt8) (rest : List UInt8) :
    pcm16LE24kToMulaw8k (a :: b :: c :: d :: e :: f :: rest) =
      encodeMulaw (sampleLE a b) :: pcm16LE24kToMulaw8k rest := rfl

theorem convert_short {xs : List UInt8} (h : xs.length < 6) : pcm16LE24kToMulaw8k xs = [] := by
  match xs with
  | [] | [_] | [_, _] | [_, _, _] | [_, _, _, _] | [_, _, _, _, _] => rfl
  | _ :: _ :: _ :: _ :: _ :: _ :: _ => simp only [List.length_cons] at h; omega

/-- What comes after whole groups is converted on its own. -/
theorem convert_append : ∀ {xs : List UInt8} (ys : List UInt8), 6 ∣ xs.length →
    pcm16LE24kToMulaw8k (xs ++ ys) = pcm16LE24kToMulaw8k xs ++ pcm16LE24kToMulaw8k ys
  | [], ys, _ => rfl
  | a :: b :: c :: d :: e :: f :: rest, ys, h => by
      have hrest : 6 ∣ rest.length := by
        simp only [List.length_cons] at h
        omega
      simp only [List.cons_append, convert_group, convert_append ys hrest]
  | [_], _, h | [_, _], _, h | [_, _, _], _, h | [_, _, _, _], _, h | [_, _, _, _, _], _, h => by
      simp only [List.length_cons, List.length_nil] at h
      omega

theorem length_convert : ∀ xs : List UInt8, (pcm16LE24kToMulaw8k xs).length = xs.length / 6
  | a :: b :: c :: d :: e :: f :: rest => by
      rw [convert_group, List.length_cons, length_convert rest]
      simp only [List.length_cons]
      omega
  | [] | [_] | [_, _] | [_, _, _] | [_, _, _, _] | [_, _, _, _, _] => by
      rw [convert_short (by simp)]
      simp

theorem exists_groups (xs : List UInt8) :
    ∃ us vs, xs = us ++ vs ∧ 6 ∣ us.length ∧ vs.length = xs.length % 6 := by
  refine ⟨xs.take (6 * (xs.length / 6)), xs.drop (6 * (xs.length / 6)), (List.take_append_drop _ _).symm, ?_, ?_⟩
  · rw [List.length_take]
    omega
  · rw [List.length_drop]
    omega

/-- The bytes left over are dropped, also together with some that do not complete the group. -/
theorem convert_append_short {xs ys : List UInt8} (h : xs.length % 6 + ys.length < 6) :
    pcm16LE24kToMulaw8k (xs ++ ys) = pcm16LE24kToMulaw8k xs := by
  obtain ⟨us, vs, hxs, hdvd, hlen⟩ := exists_groups xs
  have hleft : pcm16LE24kToMulaw8k vs = [] := convert_short (by omega)
  have hleft' : pcm16LE24kToMulaw8k (vs ++ ys) = [] := convert_short (by rw [List.length_append]; omega)
  calc pcm16LE24kToMulaw8k (xs ++ ys)
      = pcm16LE24kToMulaw8k (us ++ (vs ++ ys)) := by rw [hxs, List.append_assoc]
    _ = pcm16LE24kToMulaw8k us ++ pcm16LE24kToMulaw8k (vs ++ ys) := convert_append _ hdvd
    _ = pcm16LE24kToMulaw8k us ++ pcm16LE24kToMulaw8k vs := by rw [hleft, hleft']
    _ = pcm16LE24kToMulaw8k xs := by rw [hxs, convert_append _ hdvd]

/-! ## Pieces -/

/-- Whole groups come first; then one piece may leave bytes over, and what follows it does not complete a
group. -/
def Aligned : List Nat → Prop
  | [] => True
  | l :: ls => (6 ∣ l ∧ Aligned ls) ∨ ((∀ l' ∈ ls, l' < 6) ∧ l % 6 + ls.sum < 6)

def convertEach (pieces : List (List UInt8)) : List UInt8 := pieces.flatMap pcm16LE24kToMulaw8k

theorem convertEach_short {pieces : List (List UInt8)} (h : ∀ p ∈ pieces, p.length < 6) : convertEach pieces = [] :=
  List.flatMap_eq_nil_iff.mpr fun p hp => convert_short (h p hp)

theorem convertEach_of_aligned : ∀ {pieces : List (List UInt8)}, Aligned (pieces.map List.length) →
    convertEach pieces = pcm16LE24kToMulaw8k pieces.flatten
  | [], _ => rfl
  | p :: pieces, h => by
      rw [convertEach, List.flatMap_cons, List.flatten_cons]
      rcases h with ⟨hdvd, h⟩ | ⟨hshort, hsum⟩
      · rw [convert_append _ hdvd, ← convertEach_of_aligned h]
        rfl
      · have hnil : convertEach pieces = [] :=
          convertEach_short fun q hq => hshort _ (List.mem_map_of_mem hq)
        rw [← List.length_flatten] at hsum
        rw [convert_append_short hsum, ← convertEach, hnil, List.append_nil]

/-! ## Pieces that are not aligned -/

def silence (n : Nat) : List UInt8 := List.replicate n 0

theorem silence_add (m n : Nat) : silence (m + n) = silence m ++ silence n :=
  List.replicate_append_replicate.symm

theorem length_silence (n : Nat) : (silence n).length = n := List.length_replicate

/-- A piece of `n` bytes whose first sample is loud. -/
def loud (n : Nat) : List UInt8 := 0 :: 0x7F :: silence (n - 2)

theorem length_loud {n : Nat} (h : 6 ≤ n) : (loud n).length = n := by
  simp only [loud, List.length_cons, length_silence]
  omega

theorem convert_loud {n : Nat} (h : 6 ≤ n) (ys : List UInt8) :
    (pcm16LE24kToMulaw8k (loud n) ++ ys).head? = some 0x80 := by
  obtain ⟨k, rfl⟩ : ∃ k, n = k + 6 := ⟨n - 6, by omega⟩
  rfl

/-- After at least one silent byte the loud sample is out of step: the group starts with silence. -/
theorem convert_silence_loud {m n : Nat} (hm : 0 < m) (h : 6 ≤ n) (ys : List UInt8) :
    (pcm16LE24kToMulaw8k (silence m ++ (loud n ++ ys))).head? = some 0xFF := by
  obtain ⟨k, rfl⟩ : ∃ k, n = k + 6 := ⟨n - 6, by omega⟩
  match m, hm with
  | 1, _ | 2, _ | 3, _ | 4, _ | 5, _ => rfl
  | m + 6, _ => rfl

theorem sum_div_le : ∀ ls : List Nat, (ls.map (· / 6)).sum ≤ ls.sum / 6
  | [] => Nat.le_refl _
  | l :: ls => by
      have := sum_div_le ls
      simp only [List.map_cons, List.sum_cons]
      omega

theorem length_convertEach (pieces : List (List UInt8)) :
    (convertEach pieces).length = ((pieces.map List.length).map (· / 6)).sum := by
  induction pieces with
  | nil => rfl
  | cons p pieces ih =>
      rw [convertEach, List.flatMap_cons, List.length_append, length_convert, ← convertEach, ih]
      rfl

/-- After `m` silent bytes, not a whole group, pieces that complete a group or hold one are converted
differently one by one. -/
theorem exists_differs : ∀ {m : Nat} (ls : List Nat), 0 < m → m < 6 →
    ¬ ((∀ l ∈ ls, l < 6) ∧ m + ls.sum < 6) →
    ∃ pieces, pieces.map List.length = ls ∧ convertEach pieces ≠ pcm16LE24kToMulaw8k (silence m ++ pieces.flatten)
  | m, [], _, hlt, hn => absurd ⟨by simp, by simpa using hlt⟩ hn
  | m, l :: ls, hm, hlt, hn => by
      by_cases hl : 6 ≤ l
      · -- the loud sample of the piece is heard only when it is converted on its own
        refine ⟨loud l :: ls.map silence, ?_, fun heq => ?_⟩
        · simp [length_loud hl, length_silence, Function.comp_def]
        · have hhead := convert_loud hl (convertEach (ls.map silence))
          rw [convertEach, List.flatMap_cons, ← convertEach, List.flatten_cons] at heq
          rw [heq, convert_silence_loud hm hl] at hhead
          exact absurd hhead (by decide)
      · by_cases hsum : m + l < 6
        · -- the piece joins the silent bytes
          obtain ⟨pieces, hlen, hdiff⟩ := exists_differs (m := m + l) ls (by omega) hsum (by
            intro h
            refine hn ⟨?_, by simp only [List.sum_cons]; omega⟩
            exact List.forall_mem_cons.mpr ⟨by omega, h.1⟩)
          refine ⟨silence l :: pieces, by simp [hlen, length_silence], fun heq => hdiff ?_⟩
          rw [convertEach, List.flatMap_cons, convert_short (by rw [length_silence]; omega), List.nil_append,
            List.flatten_cons, ← List.append_assoc, ← silence_add] at heq
          exact heq
        · -- the piece completes a group that is lost when the pieces are converted one by one
          refine ⟨(l :: ls).map silence, by simp [length_silence, Function.comp_def], fun heq => ?_⟩
          have hlen := congrArg List.length heq
          have hdiv := sum_div_le ls
          rw [length_convertEach, length_convert, List.length_append, length_silence, List.length_flatten] at hlen
          simp only [List.map_map, Function.comp_def, length_silence, List.map_id', List.map_cons, List.sum_cons]
            at hlen
          omega

theorem exists_differs_of_not_aligned : ∀ ls : List Nat, ¬ Aligned ls →
    ∃ pieces, pieces.map List.length = ls ∧ convertEach pieces ≠ pcm16LE24kToMulaw8k pieces.flatten
  | [], h => absurd trivial h
  | l :: ls, h => by
      rw [Aligned, not_or] at h
      by_cases hdvd : 6 ∣ l
      · obtain ⟨pieces, hlen, hdiff⟩ := exists_differs_of_not_aligned ls fun ha => h.1 ⟨hdvd, ha⟩
        refine ⟨silence l :: pieces, by simp [hlen, length_silence], fun heq => hdiff ?_⟩
        rw [convertEach, List.flatMap_cons, List.flatten_cons,
          convert_append _ (by rw [length_silence]; exact hdvd)] at heq
        exact List.append_cancel_left heq
      · obtain ⟨pieces, hlen, hdiff⟩ := exists_differs (m := l % 6) ls (by omega) (by omega) h.2
        refine ⟨silence l :: pieces, by simp [hlen, length_silence], fun heq => hdiff ?_⟩
        have hsplit : silence l = silence (6 * (l / 6)) ++ silence (l % 6) := by
          rw [← silence_add, Nat.div_add_mod]
        have hwhole : 6 ∣ (silence (6 * (l / 6))).length := by
          rw [length_silence]
          exact Nat.dvd_mul_right _ _
        have hrest : pcm16LE24kToMulaw8k (silence (l % 6)) = [] := convert_short (by rw [length_silence]; omega)
        rw [convertEach, List.flatMap_cons, List.flatten_cons, hsplit, List.append_assoc, convert_append _ hwhole,
          convert_append _ hwhole, hrest, List.append_nil] at heq
        exact List.append_cancel_left heq

end Gopkg.Audio
