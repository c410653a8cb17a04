import Mathlib.Algebra.Order.Ring.Int
import Gopkg.Audio.Codec

/-!
# Twice as many samples

`Upsample8to16` keeps every sample and puts one after it: the mean with the next sample, or at the end the sample
itself.
-/

namespace Gopkg.Audio

variable {s : Int16}

/-! ## Bytes -/

theorem sampleLE_putUint16 (s : Int16) : sampleLE s.toUInt16.toUInt8 (s.toUInt16 >>> 8).toUInt8 = s := by
  have hlt := s.toUInt16.toNat_lt
  have hhalves : 2 ^ 8 * (s.toUInt16.toNat / 2 ^ 8) ||| s.toUInt16.toNat % 2 ^ 8 = s.toUInt16.toNat := by
    rw [← Nat.two_pow_add_eq_or_of_lt (Nat.mod_lt _ (by decide)), Nat.div_add_mod]
  have hword : s.toUInt16.toUInt8.toUInt16 ||| (s.toUInt16 >>> 8).toUInt8.toUInt16 <<< 8 = s.toUInt16 := by
    apply UInt16.toNat_inj.mp
    have hhigh : ((s.toUInt16 >>> 8).toUInt8.toUInt16 <<< 8).toNat = 2 ^ 8 * (s.toUInt16.toNat / 2 ^ 8) := by
      simp [Nat.shiftRight_eq_div_pow, Nat.shiftLeft_eq]
      omega
    rw [UInt16.toNat_or, hhigh, Nat.or_comm]
    exact hhalves
  rw [sampleLE, hword]
  exact Int16.toInt16_toUInt16 s

theorem samplesLE_flatMap : ∀ xs : List Int16, samplesLE (xs.flatMap putUint16) = xs
  | [] => rfl
  | s :: xs => by
      rw [List.flatMap_cons, putUint16, List.cons_append, List.cons_append, List.nil_append, samplesLE,
        sampleLE_putUint16, samplesLE_flatMap xs]

theorem length_flatMap_putUint16 (xs : List Int16) : (xs.flatMap putUint16).length = 2 * xs.length := by
  induction xs with
  | nil => rfl
  | cons s xs ih =>
    rw [List.flatMap_cons, List.length_append, ih, List.length_cons, Nat.mul_succ, Nat.add_comm]
    rfl

/-! ## Samples -/

/-- A half that is rounded toward zero. -/
theorem tdiv_two_bounds (n : Int) : n - 1 ≤ 2 * n.tdiv 2 ∧ 2 * n.tdiv 2 ≤ n + 1 := by
  have hrest := Int.mul_tdiv_add_tmod n 2
  have hlow := Int.lt_tmod_of_pos n (show (0 : Int) < 2 by decide)
  have hhigh := Int.tmod_lt_of_pos n (show (0 : Int) < 2 by decide)
  omega

/-- The sum is a 32-bit number, so that it does not overflow. -/
theorem toInt_midpoint (s t : Int16) : (midpoint s t).toInt = (s.toInt + t.toInt).tdiv 2 := by
  have hs := s.le_toInt
  have hs' := s.toInt_lt
  have ht := t.le_toInt
  have ht' := t.toInt_lt
  have hhalf := tdiv_two_bounds (s.toInt + t.toInt)
  have hsum : (s.toInt32 + t.toInt32).toInt = s.toInt + t.toInt := by
    rw [Int32.toInt_add, Int16.toInt_toInt32, Int16.toInt_toInt32, Int.bmod_eq_of_le] <;> omega
  have hquotient : ((s.toInt32 + t.toInt32) / 2).toInt = (s.toInt + t.toInt).tdiv 2 := by
    rw [Int32.toInt_div, hsum, show (2 : Int32).toInt = 2 by rfl, Int.bmod_eq_of_le] <;> omega
  rw [midpoint, Int32.toInt_toInt16, hquotient, Int.bmod_eq_of_le] <;> omega

theorem midpoint_between (s t : Int16) :
    min s.toInt t.toInt ≤ (midpoint s t).toInt ∧ (midpoint s t).toInt ≤ max s.toInt t.toInt := by
  have hhalf := tdiv_two_bounds (s.toInt + t.toInt)
  rw [toInt_midpoint]
  omega

theorem length_upsample : ∀ xs : List Int16, (upsample8to16 xs).length = 2 * xs.length
  | [] => rfl
  | [_] => rfl
  | _ :: s' :: xs => by
      rw [upsample8to16, List.length_cons, List.length_cons, length_upsample (s' :: xs)]
      rfl

theorem upsample_even : ∀ (xs : List Int16) (i : Nat), (upsample8to16 xs)[2 * i]? = xs[i]?
  | [], _ | [_], 0 | [_], _ + 1 | _ :: _ :: _, 0 => rfl
  | _ :: s' :: xs, i + 1 => upsample_even (s' :: xs) i

/-- What is put after a sample. -/
def inserted (s : Int16) : Option Int16 → Int16
  | some t => midpoint s t
  | none => s

theorem upsample_odd : ∀ (xs : List Int16) (i : Nat),
    (upsample8to16 xs)[2 * i + 1]? = xs[i]?.map fun s => inserted s xs[i + 1]?
  | [], _ | [_], 0 | [_], _ + 1 | _ :: _ :: _, 0 => rfl
  | _ :: s' :: xs, i + 1 => upsample_odd (s' :: xs) i

theorem upsample_last {xs : List Int16} (h : xs.getLast? = some s) :
    (upsample8to16 xs)[2 * xs.length - 1]? = some s := by
  rw [List.getLast?_eq_getElem?] at h
  have hlt : xs.length - 1 < xs.length := (List.getElem?_eq_some_iff.mp h).1
  have hnone : xs[xs.length - 1 + 1]? = none := List.getElem?_eq_none (by omega)
  rw [show 2 * xs.length - 1 = 2 * (xs.length - 1) + 1 by omega, upsample_odd, h, hnone]
  rfl

/-- Everything before a sample is made of the samples up to it, whatever comes after it. -/
theorem upsample_append (s : Int16) : ∀ us : List Int16, ∃ ws : List Int16, ws.length = 2 * us.length ∧
    ∀ tail, upsample8to16 (us ++ s :: tail) = ws ++ upsample8to16 (s :: tail)
  | [] => ⟨[], rfl, fun _ => rfl⟩
  | [u] => ⟨[u, midpoint u s], rfl, fun _ => rfl⟩
  | u :: u' :: us => by
      obtain ⟨ws, hlen, happend⟩ := upsample_append s (u' :: us)
      have hlen' : (u :: midpoint u u' :: ws).length = 2 * (u :: u' :: us).length := by
        simp only [List.length_cons] at hlen ⊢
        omega
      exact ⟨u :: midpoint u u' :: ws, hlen', fun tail => congrArg (u :: midpoint u u' :: ·) (happend tail)⟩

/-! ## Borders -/

/-- Pieces that are converted one by one give the same samples, except for the one after the last of the first piece. -/
theorem upsample_border {xs ys : List Int16} (hxs : xs ≠ []) (hys : ys ≠ []) :
    ∃ (ws : List Int16) (y y' : Int16), ws.length = 2 * xs.length - 1 ∧
      upsample8to16 xs ++ upsample8to16 ys = ws ++ y :: upsample8to16 ys ∧
      upsample8to16 (xs ++ ys) = ws ++ y' :: upsample8to16 ys := by
  obtain ⟨us, s, rfl⟩ := List.eq_nil_or_concat xs |>.resolve_left hxs
  obtain ⟨t, vs, rfl⟩ := List.exists_cons_of_ne_nil hys
  obtain ⟨ws, hlen, happend⟩ := upsample_append s us
  refine ⟨ws ++ [s], s, midpoint s t, ?_, ?_, ?_⟩
  · simp [hlen]
    omega
  · simp [happend, upsample8to16]
  · simp [happend, upsample8to16]

theorem getElem?_append_middle {α : Type} {us vs ws xs : List α} {j : Nat} (hlen : vs.length = ws.length)
    (hj : j < us.length ∨ us.length + vs.length ≤ j) :
    (us ++ (vs ++ xs))[j]? = (us ++ (ws ++ xs))[j]? := by
  rcases hj with hlow | hhigh
  · rw [List.getElem?_append_left hlow, List.getElem?_append_left hlow]
  · rw [← List.append_assoc, ← List.append_assoc, List.getElem?_append_right (by simpa using hhigh),
      List.getElem?_append_right (by simpa [← hlen] using hhigh), List.length_append, List.length_append, hlen]

theorem convert16k_border {a b : List UInt8} {j : Nat} (ha : a ≠ []) (hb : b ≠ []) (hj : j / 2 ≠ 2 * a.length - 1) :
    (mulaw8kToPCM16LE16k a ++ mulaw8kToPCM16LE16k b)[j]? = (mulaw8kToPCM16LE16k (a ++ b))[j]? := by
  have hdecoded {x : List UInt8} (hx : x ≠ []) : mulawToPCM16 x ≠ [] := by
    simpa [mulawToPCM16] using hx
  obtain ⟨ws, y, y', hlen, heach, hwhole⟩ := upsample_border (hdecoded ha) (hdecoded hb)
  have hbytes : (ws.flatMap putUint16).length = 2 * (2 * a.length - 1) := by
    rw [length_flatMap_putUint16, hlen, mulawToPCM16, List.length_map]
  rw [mulaw8kToPCM16LE16k, mulaw8kToPCM16LE16k, mulaw8kToPCM16LE16k, ← List.flatMap_append, heach,
    show mulawToPCM16 (a ++ b) = mulawToPCM16 a ++ mulawToPCM16 b from List.map_append, hwhole]
  simp only [List.flatMap_append, List.flatMap_cons]
  apply getElem?_append_middle
  · rfl
  · rw [hbytes, putUint16, List.length_cons, List.length_singleton]
    omega

end Gopkg.Audio
