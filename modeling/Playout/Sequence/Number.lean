/-!
# Stream numbers

Datagrams carry 16-bit numbers that start over every 65536 packets. A `SeqNumber` puts the
count of completed cycles above the wire number, so that the order of the stream is the
order of the integers. A `MediaUnit` is one packet's worth of media, with its number, on its way
from the network to a track.
-/

namespace Playout

/-- A 32-bit stream number: wrap cycles in the upper half, the wire number in the lower. -/
structure SeqNumber where
  raw : UInt32
deriving DecidableEq, Inhabited, Repr

namespace SeqNumber

instance : LT SeqNumber := ⟨fun a b => a.raw < b.raw⟩
instance : LE SeqNumber := ⟨fun a b => a.raw ≤ b.raw⟩
instance (a b : SeqNumber) : Decidable (a < b) := inferInstanceAs (Decidable (a.raw < b.raw))
instance (a b : SeqNumber) : Decidable (a ≤ b) := inferInstanceAs (Decidable (a.raw ≤ b.raw))

theorem lt_iff {a b : SeqNumber} : a < b ↔ a.raw.toNat < b.raw.toNat := UInt32.lt_iff_toNat_lt

theorem le_iff {a b : SeqNumber} : a ≤ b ↔ a.raw.toNat ≤ b.raw.toNat := UInt32.le_iff_toNat_le

/-- The number with wire number `wire` in cycle `cycles`. -/
def ofParts (cycles : UInt32) (wire : UInt16) : SeqNumber := ⟨cycles * 65536 + wire.toUInt32⟩

/-- The number that the packet carried on the wire. -/
def wire (n : SeqNumber) : UInt16 := n.raw.toUInt16

def cycles (n : SeqNumber) : UInt32 := n.raw >>> 16

/-- The number `k` places further on; after the last number comes zero. -/
def advance (n : SeqNumber) (k : UInt32) : SeqNumber := ⟨n.raw + k⟩

def next (n : SeqNumber) : SeqNumber := n.advance 1

def previous (n : SeqNumber) : SeqNumber := ⟨n.raw - 1⟩

/-- How far `b` is ahead of `a`; negative when it is behind. -/
def distance (a b : SeqNumber) : Int := (b.raw.toNat : Int) - a.raw.toNat

instance : HSub SeqNumber SeqNumber Int := ⟨fun a b => b.distance a⟩

def text (n : SeqNumber) : String := toString n.raw.toNat

/-- The number with its kind, as diagnostics show it. -/
def label (n : SeqNumber) : String := s!"ExtSeqNumber({n.text})"

end SeqNumber

/-- One numbered piece of media. -/
structure MediaUnit where
  seq : SeqNumber
  payload : List UInt8
  /-- Presentation time in microseconds -/
  pts : Int
  track : Nat
deriving DecidableEq, Inhabited, Repr

namespace MediaUnit

def size (u : MediaUnit) : Nat := u.payload.length

end MediaUnit

end Playout
