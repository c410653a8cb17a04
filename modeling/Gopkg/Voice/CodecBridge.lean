import Gopkg.Audio.Codec
import Gopkg.Voice.Types

/-!
# Codec bridges

`voice/pipeline/codec_bridge.go`.
-/

namespace Gopkg.Voice

open Audio

variable {V : Type}

/-- The converters that `resolveBridge` can return. -/
inductive Bridge where
  | passthrough
  | mulaw8kToPCM16LE16k
  | pcm16LE24kToMulaw8k
  deriving DecidableEq, Repr

/-- The converted frame. The signature allows an error; no converter has one. -/
def Bridge.convert : Bridge → Frame → Except (Err V) Frame
  | .passthrough, f => .ok f
  | .mulaw8kToPCM16LE16k, f => .ok { f with data := Audio.mulaw8kToPCM16LE16k f.data }
  | .pcm16LE24kToMulaw8k, f => .ok { f with data := Audio.pcm16LE24kToMulaw8k f.data }

def resolveBridge (src dst : AudioFormat) : Except (Err V) Bridge :=
  if src.channels ≠ dst.channels ∨ src.channels ≠ 1 then
    .error (.formatBridge s!"channels {src.channels}→{dst.channels} (only mono=1 supported)")
  else if src = dst then .ok .passthrough
  else if src.encoding = .mulaw ∧ src.sampleRate = 8000 ∧ dst.encoding = .pcm16le ∧ dst.sampleRate = 16000 then
    .ok .mulaw8kToPCM16LE16k
  else if src.encoding = .pcm16le ∧ src.sampleRate = 24000 ∧ dst.encoding = .mulaw ∧ dst.sampleRate = 8000 then
    .ok .pcm16LE24kToMulaw8k
  else .error (.formatBridge s!"{src.encoding.name}@{src.sampleRate} → {dst.encoding.name}@{dst.sampleRate}")

end Gopkg.Voice
