import Mathlib.Algebra.Order.Field.Rat
import Gopkg.Audio.Codec
import Gopkg.Slicex.Chunk

/-!
# Patterns of a hold tone

`NewWithOptions` of `voice/holdfiller/tone/tone.go`. An `int` has 64 bits, and a product of floats is the product of the
numbers. There is memory for every slice, so that `make` panics on negative sizes only.
-/

namespace Gopkg.Voice.Tone

open Word

/-- Durations are in nanoseconds. -/
structure Options where
  sampleRate : Int64
  frameDuration : Int64
  patternDuration : Int64
  toneDuration : Int64
  frequencyHz : ℚ
  amplitude : ℚ

/-- What the language leaves to the machine: the value of `int(x)` for a float `x` with a given whole part, where no
`int` has it, and `int16(amplitude * envelope * math.Sin(2*math.Pi*frequencyHz*t))`. -/
structure Machine where
  toInt : Int → Int64
  toInt_toInt : ∀ n, Fits n → (toInt n).toInt = n
  sample : (amplitude envelope frequencyHz t : ℚ) → Int16

inductive Panic where
  | divideByZero
  | lenOutOfRange
  | capOutOfRange
  | sliceBounds
  deriving DecidableEq

def millisecond : Int64 := 1000000
def second : Int64 := 1000000000

theorem second_toInt : second.toInt = 1000000000 := rfl

def defaults (opts : Options) : Options :=
  let toneDuration := if opts.toneDuration = 0 then 400 * millisecond else opts.toneDuration
  let patternDuration := if opts.patternDuration = 0 then 2 * second else opts.patternDuration
  { sampleRate := if opts.sampleRate = 0 then 8000 else opts.sampleRate
    frameDuration := if opts.frameDuration = 0 then 20 * millisecond else opts.frameDuration
    patternDuration := patternDuration
    toneDuration := if toneDuration > patternDuration then patternDuration else toneDuration
    frequencyHz := if opts.frequencyHz = 0 then 600 else opts.frequencyHz
    amplitude := if opts.amplitude = 0 then 2000 else opts.amplitude }

namespace Options

variable (m : Machine) (opts : Options)

/-- `int(float64(opts.SampleRate) * d.Seconds())` -/
def samples (d : Int64) : Int64 := m.toInt ((opts.sampleRate.toInt * d.toInt).tdiv second.toInt)

def totalSamples : Int64 :=
  if opts.samples m opts.patternDuration ≤ 0 then opts.sampleRate else opts.samples m opts.patternDuration

def toneSamples : Int64 := opts.samples m opts.toneDuration

def frameSamples : Int64 :=
  if opts.samples m opts.frameDuration ≤ 0 then opts.sampleRate / 50 else opts.samples m opts.frameDuration

/-- `int(0.05 * float64(opts.SampleRate))` -/
def fadeSamples : Int64 := m.toInt (opts.sampleRate.toInt.tdiv 20)

def envelope (i : Int64) : ℚ :=
  if opts.fadeSamples m > 0 ∧ i < opts.fadeSamples m then i.toInt / (opts.fadeSamples m).toInt
  else if opts.fadeSamples m > 0 ∧ i > opts.toneSamples m - opts.fadeSamples m then
    max 0 ((opts.toneSamples m - i).toInt / (opts.fadeSamples m).toInt)
  else 1

/-- The samples of a pattern. What follows the tone is silent. -/
def pcm : List Int16 :=
  (List.range (opts.totalSamples m).toInt.toNat).map fun i =>
    if Int64.ofNat i < opts.toneSamples m then
      m.sample opts.amplitude (opts.envelope m (Int64.ofNat i)) opts.frequencyHz (i / opts.sampleRate.toInt)
    else 0

def mulaw : Slicex.Slice UInt8 where
  elems := Audio.pcm16ToMulaw (opts.pcm m)
  length_lt := by
    have hlt := (opts.totalSamples m).toInt_lt
    simp only [Audio.pcm16ToMulaw, pcm, List.length_map, List.length_range]
    omega

end Options

def chunkEnd (mulaw : Slicex.Slice UInt8) (frameSamples i : Int64) : Int64 := Slicex.chunkEnd mulaw frameSamples i

/-- A turn of the loop that does not panic moves the index forward. -/
theorem lt_next {mulaw : Slicex.Slice UInt8} {n i : Int64} {c : List UInt8} (hn : n ≠ 0) (hi : i < mulaw.len)
    (hc : mulaw.cut i (chunkEnd mulaw n i) = .ok c) : i < i + n := by
  by_cases hpos : 0 < n
  · exact Slicex.lt_next hpos hi hc
  · -- the end of the chunk would be before its start
    obtain ⟨⟨hnonneg, hle⟩, _⟩ := Slicex.Slice.cut_ok hc
    rw [ne_zero_iff] at hn
    rw [Int64.lt_iff_toInt_lt, Int64.toInt_zero] at hpos
    rw [Int64.le_iff_toInt_le, Int64.toInt_zero] at hnonneg
    rw [Int64.lt_iff_toInt_lt, mulaw.len_toInt] at hi
    have hlo := n.le_toInt
    have hhi := i.toInt_lt
    rw [Int64.le_iff_toInt_le, chunkEnd, Slicex.chunkEnd_toInt ⟨by omega, by omega⟩] at hle
    omega

/-- The loop that cuts the bytes into chunks, with those that it has appended. -/
def chunksFrom (mulaw : Slicex.Slice UInt8) (frameSamples : Int64) (hne : frameSamples ≠ 0) (i : Int64)
    (chunks : List (List UInt8)) : Except Panic (List (List UInt8)) :=
  if hi : i < mulaw.len then
    if chunkEnd mulaw frameSamples i - i < 0 then .error .lenOutOfRange
    else
      match hc : mulaw.cut i (chunkEnd mulaw frameSamples i) with
      | .error _ => .error .sliceBounds
      | .ok c =>
          have := lt_next hne hi hc
          chunksFrom mulaw frameSamples hne (i + frameSamples) (chunks ++ [c])
  else .ok chunks
termination_by (mulaw.len.toInt - i.toInt).toNat
decreasing_by
  rw [Int64.lt_iff_toInt_lt] at *
  omega

def generate (m : Machine) (opts : Options) : Except Panic (List (List UInt8)) :=
  if opts.totalSamples m < 0 then .error .lenOutOfRange
  else if hzero : opts.frameSamples m = 0 then .error .divideByZero
  else if ((opts.mulaw m).len + opts.frameSamples m - 1) / opts.frameSamples m < 0 then .error .capOutOfRange
  else chunksFrom (opts.mulaw m) (opts.frameSamples m) hzero 0 []

/-- The chunks of `NewWithOptions`. -/
def newWithOptions (m : Machine) (opts : Options) : Except Panic (List (List UInt8)) := generate m (defaults opts)

/-! ## The loop -/

section Loop

variable {mulaw : Slicex.Slice UInt8} {n i : Int64} {chunks : List (List UInt8)}

/-- The loop is that of `slicex.Chunk`, but for the panics. -/
theorem chunksFrom_toOption (hn : 0 < n) (hne : n ≠ 0) :
    (chunksFrom mulaw n hne i chunks).toOption = (Slicex.chunkLoop mulaw n hn i chunks).toOption := by
  fun_induction Slicex.chunkLoop mulaw n hn i chunks with
  | case1 i chunks hi p hc =>
      rw [chunksFrom, dif_pos hi]
      split
      next => rfl
      next =>
        split
        next => rfl
        next hok => cases hc.symm.trans hok
  | case2 i chunks hi c hc _ ih =>
      obtain ⟨⟨hnonneg, hle⟩, _⟩ := Slicex.Slice.cut_ok hc
      have hlen : ¬ chunkEnd mulaw n i - i < 0 := by
        rw [Int64.le_iff_toInt_le] at hle hnonneg
        rw [Int64.toInt_zero] at hnonneg
        have hhi := (Slicex.chunkEnd mulaw n i).toInt_lt
        rw [lt_zero_iff, chunkEnd, toInt_sub_iff.mpr ⟨by omega, by omega⟩]
        omega
      rw [chunksFrom, dif_pos hi, if_neg hlen]
      split
      next herr => cases herr.symm.trans hc
      next hok =>
        cases hok.symm.trans hc
        exact ih
  | case3 i chunks hi =>
      rw [chunksFrom, dif_neg hi]
      rfl

end Loop

/-! ## Generating a pattern -/

variable {m : Machine} {opts : Options}

theorem length_mulaw (h : 0 ≤ (opts.totalSamples m).toInt) :
    ((opts.mulaw m).elems.length : Int) = (opts.totalSamples m).toInt := by
  simp only [Options.mulaw, Audio.pcm16ToMulaw, Options.pcm, List.length_map, List.length_range]
  omega

/-- With a positive step the bytes are cut as by `slicex.Chunk`. -/
theorem generate_toOption (htotal : 0 < (opts.totalSamples m).toInt) (hframe : 0 < opts.frameSamples m) :
    (generate m opts).toOption = (Slicex.chunk (opts.mulaw m) (opts.frameSamples m)).toOption := by
  have hne : opts.frameSamples m ≠ 0 := fun h => absurd hframe (h ▸ Int64.lt_irrefl)
  have hlen : (opts.mulaw m).len ≠ 0 := by
    rw [ne_zero_iff, Slicex.Slice.len_toInt, length_mulaw (Int.le_of_lt htotal)]
    exact Int.ne_of_gt htotal
  have hnonneg : ¬ opts.totalSamples m < 0 := by
    rw [lt_zero_iff]
    omega
  rw [generate, Slicex.chunk, if_neg hnonneg, dif_neg hne, dif_neg (Int64.not_le.mpr hframe), if_neg hlen]
  split
  next => rfl
  next => exact chunksFrom_toOption hframe hne

theorem generate_divides (htotal : 0 ≤ (opts.totalSamples m).toInt) (hframe : opts.frameSamples m = 0) :
    generate m opts = .error .divideByZero := by
  have hnonneg : ¬ opts.totalSamples m < 0 := by
    rw [lt_zero_iff]
    omega
  rw [generate, if_neg hnonneg, dif_pos hframe]

/-! ## Options -/

structure Options.Positive (opts : Options) : Prop where
  sampleRate : 0 < opts.sampleRate.toInt
  frameDuration : 0 < opts.frameDuration.toInt
  patternDuration : 0 < opts.patternDuration.toInt
  toneDuration : 0 < opts.toneDuration.toInt

namespace Options

/-- The samples of a pattern, as an exact number. -/
def patternSamples (opts : Options) : Int :=
  if opts.sampleRate.toInt * opts.patternDuration.toInt < second.toInt then opts.sampleRate.toInt
  else opts.sampleRate.toInt * opts.patternDuration.toInt / second.toInt

/-- The samples of a frame, as an exact number. -/
def frameLength (opts : Options) : Int :=
  if opts.sampleRate.toInt * opts.frameDuration.toInt < second.toInt then opts.sampleRate.toInt / 50
  else opts.sampleRate.toInt * opts.frameDuration.toInt / second.toInt

/-- An `int` holds the counts of samples. -/
structure CountsFit (opts : Options) : Prop where
  pattern : Fits (opts.sampleRate.toInt * opts.patternDuration.toInt / second.toInt)
  frame : Fits (opts.sampleRate.toInt * opts.frameDuration.toInt / second.toInt)

/-- A frame has a sample: the rate is not too low for its duration, or for the fiftieth of a second. -/
def FrameHasSample (opts : Options) : Prop :=
  50 ≤ opts.sampleRate.toInt ∨ second.toInt ≤ opts.sampleRate.toInt * opts.frameDuration.toInt

/-- The sum of the two counts does not wrap around; or it does so for a pattern of one frame, and by so little that the
capacity comes out as zero. -/
def SumsFit (opts : Options) : Prop :=
  opts.patternSamples + opts.frameLength ≤ 2 ^ 63 ∨
    (opts.patternSamples ≤ opts.frameLength ∧ 2 ^ 64 + 1 < opts.patternSamples + 2 * opts.frameLength)

theorem frameLength_nonneg (h : opts.Positive) : 0 ≤ opts.frameLength := by
  have hrate := h.sampleRate
  rw [frameLength, second_toInt]
  generalize opts.sampleRate.toInt * opts.frameDuration.toInt = p
  split <;> omega

theorem frameLength_pos_iff (h : opts.Positive) : 0 < opts.frameLength ↔ opts.FrameHasSample := by
  have hrate := h.sampleRate
  rw [frameLength, FrameHasSample, second_toInt]
  generalize opts.sampleRate.toInt * opts.frameDuration.toInt = p
  split <;> omega

theorem samples_toInt {d : Int64} (hrate : 0 < opts.sampleRate.toInt) (hd : 0 < d.toInt)
    (hfits : Fits (opts.sampleRate.toInt * d.toInt / second.toInt)) :
    (opts.samples m d).toInt = opts.sampleRate.toInt * d.toInt / second.toInt := by
  have hprod : 0 < opts.sampleRate.toInt * d.toInt := Int.mul_pos hrate hd
  rw [samples, Int.tdiv_eq_ediv_of_nonneg (Int.le_of_lt hprod), m.toInt_toInt _ hfits]

theorem totalSamples_toInt (m : Machine) (h : opts.Positive) (hfits : opts.CountsFit) :
    (opts.totalSamples m).toInt = opts.patternSamples := by
  have hcount := samples_toInt (m := m) h.sampleRate h.patternDuration hfits.pattern
  rw [totalSamples, patternSamples]
  rw [second_toInt] at hcount ⊢
  simp only [Int64.le_iff_toInt_le, Int64.toInt_zero, hcount]
  generalize opts.sampleRate.toInt * opts.patternDuration.toInt = p at hcount ⊢
  split <;> split <;> omega

theorem frameSamples_toInt (m : Machine) (h : opts.Positive) (hfits : opts.CountsFit) :
    (opts.frameSamples m).toInt = opts.frameLength := by
  have hcount := samples_toInt (m := m) h.sampleRate h.frameDuration hfits.frame
  have hfifty : (opts.sampleRate / 50).toInt = opts.sampleRate.toInt / 50 := by
    rw [toInt_div_iff.mpr (by rintro ⟨_, h⟩; exact absurd h (by decide))]
    exact Int.tdiv_eq_ediv_of_nonneg (Int.le_of_lt h.sampleRate)
  rw [frameSamples, frameLength]
  rw [second_toInt] at hcount ⊢
  simp only [Int64.le_iff_toInt_le, Int64.toInt_zero, hcount]
  generalize opts.sampleRate.toInt * opts.frameDuration.toInt = p at hcount ⊢
  split <;> split <;> omega

theorem patternSamples_pos (h : opts.Positive) : 0 < opts.patternSamples := by
  have hrate := h.sampleRate
  rw [patternSamples, second_toInt]
  generalize opts.sampleRate.toInt * opts.patternDuration.toInt = p
  split <;> omega

theorem Positive.defaults_eq (h : opts.Positive) : (defaults opts).sampleRate = opts.sampleRate ∧
    (defaults opts).frameDuration = opts.frameDuration ∧ (defaults opts).patternDuration = opts.patternDuration := by
  have hne : ∀ {a : Int64}, 0 < a.toInt → a ≠ 0 := fun ha => ne_zero_iff.mpr (Int.ne_of_gt ha)
  exact ⟨if_neg (hne h.sampleRate), if_neg (hne h.frameDuration), if_neg (hne h.patternDuration)⟩

theorem Positive.defaults (h : opts.Positive) : (defaults opts).Positive := by
  obtain ⟨hrate, hframe, hpattern⟩ := h.defaults_eq
  refine ⟨hrate ▸ h.sampleRate, hframe ▸ h.frameDuration, hpattern ▸ h.patternDuration, ?_⟩
  have htone : (if opts.toneDuration = 0 then 400 * millisecond else opts.toneDuration) = opts.toneDuration :=
    if_neg (ne_zero_iff.mpr (Int.ne_of_gt h.toneDuration))
  have hpattern : (if opts.patternDuration = 0 then 2 * second else opts.patternDuration) = opts.patternDuration :=
    if_neg (ne_zero_iff.mpr (Int.ne_of_gt h.patternDuration))
  simp only [Tone.defaults, htone, hpattern]
  split
  · exact h.patternDuration
  · exact h.toneDuration

end Options

/-! ## Chunks -/

theorem safe_mulaw_iff (h : opts.Positive) (hfits : opts.CountsFit) :
    Slicex.Safe (opts.mulaw m) (opts.frameSamples m) ↔ opts.SumsFit := by
  have hpos := Options.patternSamples_pos h
  have htotal := Options.totalSamples_toInt m h hfits
  have hlength : ((opts.mulaw m).elems.length : Int) = (opts.totalSamples m).toInt := length_mulaw (by omega)
  rw [htotal] at hlength
  have hne : (opts.mulaw m).elems ≠ [] := by
    rw [← List.length_pos_iff]
    omega
  rw [Slicex.Safe, Options.SumsFit, hlength, Options.frameSamples_toInt m h hfits]
  exact or_iff_right hne

theorem generate_ok_iff (h : opts.Positive) (hfits : opts.CountsFit) (chunks : List (List UInt8)) :
    generate m opts = .ok chunks ↔ opts.FrameHasSample ∧ opts.SumsFit ∧
      chunks = Stream.pieces opts.frameLength.toNat (opts.mulaw m).elems := by
  have hpos := Options.patternSamples_pos h
  have htotal := Options.totalSamples_toInt m h hfits
  have hframe := Options.frameSamples_toInt m h hfits
  have hok : ∀ {ε : Type} {e : Except ε (List (List UInt8))}, e = .ok chunks ↔ e.toOption = some chunks := by
    intro ε e
    cases e <;> simp [Except.toOption]
  rw [← Options.frameLength_pos_iff h]
  by_cases hsample : 0 < opts.frameLength
  · have hpositive : 0 < opts.frameSamples m := by
      rw [Int64.lt_iff_toInt_lt, hframe]
      exact hsample
    rw [hok, generate_toOption (by omega) hpositive, ← hok, ← safe_mulaw_iff (m := m) h hfits]
    by_cases hsafe : Slicex.Safe (opts.mulaw m) (opts.frameSamples m)
    · rw [Slicex.chunk_of_safe hpositive hsafe, hframe, Except.ok.injEq]
      simp only [hsample, hsafe, true_and, eq_comm]
    · obtain ⟨p, hpanic⟩ := Slicex.chunk_of_not_safe hpositive hsafe
      simp [hpanic, hsafe]
  · have hnonneg := Options.frameLength_nonneg h
    have hzero : opts.frameSamples m = 0 := by
      rw [← Int64.toInt_inj, hframe, Int64.toInt_zero]
      omega
    simp [generate_divides (m := m) (by omega) hzero, hsample]

/-- With positive options whose counts of samples are an `int` the tone is cut into chunks of one length and a last one,
with no byte lost, unless a frame has no sample or the sum of the counts wraps around. -/
theorem chunks_lossless_iff (m : Machine) (opts : Options) (h : opts.Positive) (hfits : opts.CountsFit) :
    (∃ chunks, newWithOptions m opts = .ok chunks ∧ (∀ c ∈ chunks, c ≠ []) ∧
        (∀ c ∈ chunks.dropLast, ∀ c' ∈ chunks.dropLast, c.length = c'.length) ∧
          (chunks.flatten.length : Int) = opts.patternSamples) ↔ opts.FrameHasSample ∧ opts.SumsFit := by
  obtain ⟨hrate, hframe, hpattern⟩ := h.defaults_eq
  have hcounts : (defaults opts).patternSamples = opts.patternSamples ∧
      (defaults opts).frameLength = opts.frameLength := by
    simp only [Options.patternSamples, Options.frameLength, hrate, hframe, hpattern, and_self]
  have hfits' : (defaults opts).CountsFit := by
    refine ⟨?_, ?_⟩
    · rw [hrate, hpattern]
      exact hfits.pattern
    · rw [hrate, hframe]
      exact hfits.frame
  have hsample : (defaults opts).FrameHasSample ↔ opts.FrameHasSample := by
    rw [Options.FrameHasSample, Options.FrameHasSample, hrate, hframe]
  have hsums : (defaults opts).SumsFit ↔ opts.SumsFit := by
    rw [Options.SumsFit, Options.SumsFit, hcounts.1, hcounts.2]
  simp only [newWithOptions, generate_ok_iff (m := m) h.defaults hfits', hsample, hsums]
  constructor
  · rintro ⟨chunks, ⟨hframes, hroom, _⟩, _⟩
    exact ⟨hframes, hroom⟩
  · rintro ⟨hframes, hroom⟩
    have hstep := (Options.frameLength_pos_iff h).mpr hframes
    have hcut := Stream.cut_pieces (n := (defaults opts).frameLength.toNat) (by omega) ((defaults opts).mulaw m).elems
    have htotal := Options.totalSamples_toInt m h.defaults hfits'
    have hpos := Options.patternSamples_pos h.defaults
    refine ⟨_, ⟨hframes, hroom, rfl⟩, hcut.nonempty, fun c hc c' hc' => ?_, ?_⟩
    · rw [hcut.full c hc, hcut.full c' hc']
    · rw [hcut.flatten, length_mulaw (by omega), htotal, hcounts.1]

/-- Numbers out of range wrap around, and every sample is zero. -/
def silent : Machine where
  toInt := Int64.ofInt
  toInt_toInt n hn := by exact Int64.toInt_ofInt.trans (bmod_eq_iff_fits.mpr hn)
  sample _ _ _ _ := 0

/-- The defaults, but with the sample rate `rate`. -/
def atRate (rate : Int64) : Options := ⟨rate, 20 * millisecond, 2 * second, 400 * millisecond, 600, 2000⟩

theorem chunks_lossless_iff_eight_kilohertz : ∃ chunks, newWithOptions silent (atRate 8000) = .ok chunks ∧
    (∀ c ∈ chunks, c ≠ []) ∧ (∀ c ∈ chunks.dropLast, ∀ c' ∈ chunks.dropLast, c.length = c'.length) ∧
      (chunks.flatten.length : Int) = (atRate 8000).patternSamples :=
  (chunks_lossless_iff silent (atRate 8000) ⟨by decide, by decide, by decide, by decide⟩
    ⟨by decide, by decide⟩).mpr ⟨.inl (by decide), .inl (by decide)⟩

/-- Forty samples per second are less than one in twenty milliseconds, and in a fiftieth of a second. -/
theorem forty_hertz_divides_by_zero : (atRate 40).Positive ∧ (atRate 40).CountsFit ∧
    newWithOptions silent (atRate 40) = .error .divideByZero :=
  ⟨⟨by decide, by decide, by decide, by decide⟩, ⟨by decide, by decide⟩, generate_divides (by decide) (by decide)⟩

end Gopkg.Voice.Tone
