import Gopkg.Audio.Lemmas.Quantiser
import Gopkg.Audio.Lemmas.Upsample

/-!
# What the codec keeps
-/

namespace Gopkg.Audio

/-- Coding and decoding moves a sample to the middle of its cell, keeps the order of samples and their sign; a stream
that is decoded and coded again is the same stream, except for negative zeros. -/
theorem mulaw_quantises :
    (∀ pcm : List Int16, mulawToPCM16 (pcm16ToMulaw pcm) = pcm.map quantised) ∧
    (∀ s : Int16, ∃ e < 8, 2 ^ (e + 7) ≤ (clamp s).natAbs + 132 ∧ (clamp s).natAbs + 132 < 2 ^ (e + 8) ∧
      |(quantised s).toInt - clamp s| ≤ 2 ^ (e + 2)) ∧
    (∀ s t : Int16, s ≤ t → quantised s ≤ quantised t) ∧
    (∀ s : Int16, -32768 < s.toInt → (quantised (-s)).toInt = -(quantised s).toInt) ∧
    ∀ x : List UInt8, pcm16ToMulaw (mulawToPCM16 x) = x.map positiveZero ∧
      mulawToPCM16 (pcm16ToMulaw (mulawToPCM16 x)) = mulawToPCM16 x := by
  have hcode (x : List UInt8) : pcm16ToMulaw (mulawToPCM16 x) = x.map positiveZero := by
    rw [pcm16ToMulaw, mulawToPCM16, List.map_map]
    exact List.map_congr_left fun b _ => encode_decode b
  refine ⟨fun pcm => List.map_map, fun s => ?_, fun s t h => quantised_mono h, fun s h => toInt_quantised_neg h,
    fun x => ⟨hcode x, ?_⟩⟩
  · have hlow := le_biased 32635 s
    obtain ⟨hbegin, hend⟩ := segment hlow
    rw [← biased_eq]
    exact ⟨_, exponentOf_lt hlow (biased_lt (Nat.le_refl _) s), hbegin, hend, quantised_near s⟩
  · rw [hcode, mulawToPCM16, List.map_map]
    exact List.map_congr_left fun b _ => decode_positiveZero b

/-- The caller's audio: four bytes for one, every sample kept with one between it and the next. Where the stream is cut
matters for one sample only. -/
theorem mulaw8kToPCM16LE16k_spec (x : List UInt8) :
    (mulaw8kToPCM16LE16k x).length = 4 * x.length ∧
    (∀ i : Nat, (samplesLE (mulaw8kToPCM16LE16k x))[2 * i]? = (mulawToPCM16 x)[i]?) ∧
    (∀ (i : Nat) (d d' : Int16), (mulawToPCM16 x)[i]? = some d → (mulawToPCM16 x)[i + 1]? = some d' →
      ∃ y, (samplesLE (mulaw8kToPCM16LE16k x))[2 * i + 1]? = some y ∧ y.toInt = (d.toInt + d'.toInt).tdiv 2 ∧
        min d.toInt d'.toInt ≤ y.toInt ∧ y.toInt ≤ max d.toInt d'.toInt) ∧
    (∀ d : Int16, (mulawToPCM16 x).getLast? = some d →
      (samplesLE (mulaw8kToPCM16LE16k x))[2 * x.length - 1]? = some d) ∧
    ∀ a b : List UInt8, x = a ++ b → a ≠ [] → b ≠ [] → ∀ j : Nat, j / 2 ≠ 2 * a.length - 1 →
      (mulaw8kToPCM16LE16k a ++ mulaw8kToPCM16LE16k b)[j]? = (mulaw8kToPCM16LE16k x)[j]? := by
  have hsamples : samplesLE (mulaw8kToPCM16LE16k x) = upsample8to16 (mulawToPCM16 x) := samplesLE_flatMap _
  rw [hsamples]
  have hlen : (mulawToPCM16 x).length = x.length := List.length_map _
  refine ⟨?_, fun i => upsample_even _ i, fun i d d' hd hd' => ?_, fun d hd => ?_, ?_⟩
  · rw [mulaw8kToPCM16LE16k, length_flatMap_putUint16, length_upsample, hlen]
    omega
  · refine ⟨midpoint d d', ?_, toInt_midpoint d d', midpoint_between d d'⟩
    rw [upsample_odd, hd, hd']
    rfl
  · rw [← hlen]
    exact upsample_last hd
  · rintro a b rfl ha hb j hj
    exact convert16k_border ha hb hj

/-- Full scale, then full scale with the other sign: the sample between them is 0 only if they come together. -/
theorem mulaw8kToPCM16LE16k_spec_border :
    (mulaw8kToPCM16LE16k [0x80] ++ mulaw8kToPCM16LE16k [0x00])[4]? = (mulaw8kToPCM16LE16k [0x80, 0x00])[4]? ∧
    (mulaw8kToPCM16LE16k [0x80] ++ mulaw8kToPCM16LE16k [0x00])[2]? ≠ (mulaw8kToPCM16LE16k [0x80, 0x00])[2]? :=
  ⟨(mulaw8kToPCM16LE16k_spec [0x80, 0x00]).2.2.2.2 [0x80] [0x00] rfl (by simp) (by simp) 4 (by decide), by decide⟩

end Gopkg.Audio
