import Playout.Sequence.Number

/-!
# Widening wire numbers

`Extender.extend` turns the 16-bit numbers of arriving packets into stream numbers. It
compares each with the highest number so far, modulo 65536:

* less than `maxDropout` ahead: the packet is new and moves the highest number up;
* at most `maxMisorder` behind: the packet is late or a duplicate and gets its own number;
* anything else is a jump that cannot be trusted, and the packet gets no number.

The extender also counts arrivals, and `report` derives from the counts the figures that a
receiver sends back: packets lost since the start, and the fraction lost since the last
report.
-/

namespace Playout

/-- Packets less than this far ahead are accepted as new. -/
def maxDropout : UInt16 := 3000

/-- Packets at most this far behind are accepted as late. -/
def maxMisorder : UInt16 := 100

/-- The figures of one reception report. -/
structure Reception where
  highest : SeqNumber
  /-- Packets from the first number to the highest -/
  expected : UInt32
  /-- Expected less received, held within 24 signed bits -/
  cumulativeLost : Int
  /-- Share lost since the last report, in units of 1/256 -/
  fractionLost : UInt8
deriving DecidableEq, Inhabited, Repr

/-- What the extender remembers of the stream. -/
structure Extender where
  started : Bool := false
  /-- Highest wire number of the current cycle -/
  highest : UInt16 := 0
  cycles : UInt32 := 0
  /-- Wire number of the first packet -/
  first : UInt32 := 0
  /-- Packets that moved the highest number up or repeated it -/
  received : UInt32 := 0
  /-- `expected` when the current interval began -/
  expectedBefore : UInt32 := 0
  /-- `received` when the current interval began -/
  receivedBefore : UInt32 := 0
deriving DecidableEq, Inhabited, Repr

namespace Extender

/-- The stream number of a packet with wire number `wire`, if it can be trusted. -/
def extend (x : Extender) (wire : UInt16) : Option SeqNumber × Extender :=
  -- the first packet is always taken
  if !x.started then
    (some (.ofParts x.cycles wire),
      { x with
        started := true, first := wire.toUInt32, highest := wire, received := x.received + 1 })
  else
    let ahead := wire - x.highest
    if ahead < maxDropout then
      -- a new packet with a smaller wire number begins the next cycle
      let cycles := if wire < x.highest then x.cycles + 1 else x.cycles
      (some (.ofParts cycles wire),
        { x with cycles := cycles, highest := wire, received := x.received + 1 })
    else if ahead.toNat ≤ 65536 - maxMisorder.toNat then
      -- a jump in either direction
      (none, x)
    -- a late packet above the highest wire number is from the cycle before, if there is one
    else if x.highest < wire ∧ 0 < x.cycles then
      (some (.ofParts (x.cycles - 1) wire), x)
    else
      (some (.ofParts x.cycles wire), x)

def highest? (x : Extender) : Option SeqNumber :=
  if x.started then some (.ofParts x.cycles x.highest) else none

/-- How many packets the stream has had from the first number to the highest. -/
def expected (x : Extender) : UInt32 :=
  match x.highest? with
  | some n => n.raw - x.first + 1
  | none => 0

/-- The values that 24 signed bits can hold. -/
def clampLost (n : Int) : Int := max (-0x800000) (min n 0x7FFFFF)

/-- The share `lost / expected` in units of 1/256, at most 255, and 0 without a loss. -/
def lossFraction (expected received : UInt32) : UInt8 :=
  let lost := expected.toNat - received.toNat
  if expected = 0 then 0 else UInt8.ofNat (min (lost * 256 / expected.toNat) 255)

/-- The figures at this moment; the reporting interval goes on. -/
def peek (x : Extender) : Reception where
  highest := x.highest?.getD ⟨0⟩
  expected := x.expected
  cumulativeLost := clampLost ((x.expected.toNat : Int) - x.received.toNat)
  fractionLost := lossFraction (x.expected - x.expectedBefore) (x.received - x.receivedBefore)

/-- The figures at this moment; a new reporting interval begins. -/
def report (x : Extender) : Reception × Extender :=
  (x.peek, { x with expectedBefore := x.expected, receivedBefore := x.received })

end Extender

end Playout
