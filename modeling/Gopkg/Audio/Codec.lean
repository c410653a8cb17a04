/-!
# G.711 μ-law and resampling

`audio/codec/codec.go`. A byte stream is a list of bytes and a sample stream a list of 16-bit integers;
Go's `int` is a 64-bit integer.
-/

namespace Gopkg.Audio

set_option maxRecDepth 4000 in
def mulawDecodeTable : Vector Int16 256 := #v[
  -32124, -31100, -30076, -29052, -28028, -27004, -25980, -24956, -23932, -22908, -21884, -20860, -19836, -18812, -17788, -16764,
  -15996, -15484, -14972, -14460, -13948, -13436, -12924, -12412, -11900, -11388, -10876, -10364, -9852, -9340, -8828, -8316,
  -7932, -7676, -7420, -7164, -6908, -6652, -6396, -6140, -5884, -5628, -5372, -5116, -4860, -4604, -4348, -4092,
  -3900, -3772, -3644, -3516, -3388, -3260, -3132, -3004, -2876, -2748, -2620, -2492, -2364, -2236, -2108, -1980,
  -1884, -1820, -1756, -1692, -1628, -1564, -1500, -1436, -1372, -1308, -1244, -1180, -1116, -1052, -988, -924,
  -876, -844, -812, -780, -748, -716, -684, -652, -620, -588, -556, -524, -492, -460, -428, -396,
  -372, -356, -340, -324, -308, -292, -276, -260, -244, -228, -212, -196, -180, -164, -148, -132,
  -120, -112, -104, -96, -88, -80, -72, -64, -56, -48, -40, -32, -24, -16, -8, 0,
  32124, 31100, 30076, 29052, 28028, 27004, 25980, 24956, 23932, 22908, 21884, 20860, 19836, 18812, 17788, 16764,
  15996, 15484, 14972, 14460, 13948, 13436, 12924, 12412, 11900, 11388, 10876, 10364, 9852, 9340, 8828, 8316,
  7932, 7676, 7420, 7164, 6908, 6652, 6396, 6140, 5884, 5628, 5372, 5116, 4860, 4604, 4348, 4092,
  3900, 3772, 3644, 3516, 3388, 3260, 3132, 3004, 2876, 2748, 2620, 2492, 2364, 2236, 2108, 1980,
  1884, 1820, 1756, 1692, 1628, 1564, 1500, 1436, 1372, 1308, 1244, 1180, 1116, 1052, 988, 924,
  876, 844, 812, 780, 748, 716, 684, 652, 620, 588, 556, 524, 492, 460, 428, 396,
  372, 356, 340, 324, 308, 292, 276, 260, 244, 228, 212, 196, 180, 164, 148, 132,
  120, 112, 104, 96, 88, 80, 72, 64, 56, 48, 40, 32, 24, 16, 8, 0]

def mulawBias : Int64 := 0x84
def mulawClip : Int64 := 32635

def mulawToPCM16 (mulaw : List UInt8) : List Int16 :=
  mulaw.map fun b => mulawDecodeTable.get ⟨b.toNat, b.toNat_lt⟩

/-- The search for the highest bit, over the `n` masks that are left. -/
def findExponent (mag : Int64) : (n : Nat) → (exponent expMask : Int64) → Int64
  | 0, exponent, _ => exponent
  | n + 1, exponent, expMask =>
      if mag &&& expMask ≠ 0 then exponent else findExponent mag n (exponent - 1) (expMask >>> 1)

def encodeMulaw (sample : Int16) : UInt8 :=
  let wide := sample.toInt64
  let sign : Int64 := if wide < 0 then 0x80 else 0
  let mag := if wide < 0 then -wide else wide
  let mag := (if mag > mulawClip then mulawClip else mag) + mulawBias
  let exponent := findExponent mag 8 7 0x4000
  let mantissa := (mag >>> (exponent + 3)) &&& 0x0F
  (~~~(sign ||| (exponent <<< 4) ||| mantissa)).toUInt64.toUInt8

def pcm16ToMulaw (pcm : List Int16) : List UInt8 := pcm.map encodeMulaw

/-- Go's division rounds toward zero, and so does `Int32`'s. -/
def midpoint (a b : Int16) : Int16 := ((a.toInt32 + b.toInt32) / 2).toInt16

def upsample8to16 : List Int16 → List Int16
  | [] => []
  | [s] => [s, s]
  | s :: s' :: rest => s :: midpoint s s' :: upsample8to16 (s' :: rest)

/-- Every third sample; the one or two samples after the last whole group are dropped. -/
def downsample24to8 : List Int16 → List Int16
  | s :: _ :: _ :: rest => s :: downsample24to8 rest
  | _ => []

/-- `binary.LittleEndian.Uint16` as a signed sample. -/
def sampleLE (lo hi : UInt8) : Int16 := (lo.toUInt16 ||| (hi.toUInt16 <<< 8)).toInt16

/-- The whole samples of a little-endian byte stream. -/
def samplesLE : List UInt8 → List Int16
  | lo :: hi :: rest => sampleLE lo hi :: samplesLE rest
  | _ => []

/-- `binary.LittleEndian.PutUint16`. -/
def putUint16 (s : Int16) : List UInt8 := [s.toUInt16.toUInt8, (s.toUInt16 >>> 8).toUInt8]

def mulaw8kToPCM16LE16k (mulaw : List UInt8) : List UInt8 :=
  (upsample8to16 (mulawToPCM16 mulaw)).flatMap putUint16

def pcm16LE24kToMulaw8k (pcmData : List UInt8) : List UInt8 :=
  pcm16ToMulaw (downsample24to8 (samplesLE pcmData))

end Gopkg.Audio
