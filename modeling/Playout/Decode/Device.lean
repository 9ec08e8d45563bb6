import Playout.Fault

/-!
# Decoders as devices

A decoder lives outside of this library. It owns input slots, into which encoded media is
copied, and output slots, which it hands out and takes back. `DecoderCall` lists what it can
be told; a `DecoderDevice` is any device that answers such calls from a state of its own.
-/

namespace Playout

inductive MediaKind where
  | video
  | audio
deriving DecidableEq, Inhabited, Repr

namespace MediaKind

def label : MediaKind → String
  | video => "Video"
  | audio => "Audio"

end MediaKind

structure MediaFormat where
  mime : String
  kind : MediaKind
  width : UInt32 := 0
  height : UInt32 := 0
  sampleRate : UInt32 := 0
  channels : UInt16 := 0
deriving DecidableEq, Inhabited, Repr

namespace MediaFormat

/-- Pictures of a size. -/
def video (mime : String) (width height : UInt32) : MediaFormat :=
  { mime, kind := .video, width, height }

/-- Sound in a number of channels. -/
def audio (mime : String) (sampleRate : UInt32) (channels : UInt16) : MediaFormat :=
  { mime, kind := .audio, sampleRate, channels }

end MediaFormat

/-- Encoded media for one moment of a track. -/
structure AccessUnit where
  /-- Presentation time in microseconds -/
  pts : Int
  payload : List UInt8
deriving DecidableEq, Inhabited, Repr

/-- Decoded media in an output slot. -/
structure DecodedOutput where
  slot : Nat
  /-- Presentation time in microseconds -/
  pts : Int
  payload : List UInt8
deriving DecidableEq, Inhabited, Repr

/-- What a decoder can be told. -/
inductive DecoderCall where
  /-- Prepare for a format; a decoder with a surface draws its outputs on it. -/
  | configure (format : MediaFormat) (onSurface : Bool)
  | start
  | stop
  /-- Free everything; the decoder is of no use afterwards. -/
  | release
  | queueInput (slot : Nat) (unit : AccessUnit)
  | releaseOutput (slot : Nat)
  /-- Present an output slot and take it back. -/
  | renderOutput (slot : Nat)
deriving DecidableEq, Inhabited, Repr

structure DecoderDevice (δ : Type) where
  call : DecoderCall → δ → Except DecoderError Unit × δ
  inputSlots : δ → Nat
  outputSlots : δ → Nat

end Playout
