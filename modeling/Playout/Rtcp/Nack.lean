import Playout.Bytes.BigEndian

/-!
# Asking for lost packets (generic NACK)

A `Nack` names one lost packet and, by a mask of sixteen bits, which of the sixteen that
follow it are lost too. `toBytes` and `ofBytes?` write and read its 16-byte packet,
`lostSequences` spells the set out.
-/

namespace Playout

/-- A request to send packets again. -/
structure Nack where
  /-- Who asks -/
  senderSsrc : UInt32
  /-- Whose packets are missing -/
  mediaSsrc : UInt32
  pid : UInt16
  /-- Bit `i` stands for the packet `i + 1` places after the first. -/
  blp : UInt16
deriving DecidableEq, Inhabited, Repr

/-- Why bytes are refused as a `Nack`. -/
inductive NackError where
  | insufficientData (actual : Nat)
  | notGenericNack (version format packetType : Nat)
deriving DecidableEq, Inhabited, Repr

namespace Nack

open Bytes

def size : Nat := 16

/-- Packet type of transport feedback. -/
def packetType : UInt8 := 205

/-- Feedback format of a generic NACK. -/
def format : Nat := 1

/-- Ask for a single packet. -/
def single (senderSsrc mediaSsrc : UInt32) (wire : UInt16) : Nack :=
  ⟨senderSsrc, mediaSsrc, wire, 0⟩

/-- The wire numbers asked for, in the order of the stream. -/
def lostSequences (n : Nack) : List UInt16 :=
  n.pid :: ((List.range 16).filter n.blp.toNat.testBit).map
    (fun i => n.pid + UInt16.ofNat (i + 1))

/-- The packet: two header bytes, its length in words less one, and the four fields. -/
def toBytes (n : Nack) : List UInt8 :=
  [0x81, packetType] ++ word16 3 ++ word32 n.senderSsrc ++ word32 n.mediaSsrc
    ++ word16 n.pid ++ word16 n.blp

/-- The fields behind the two header bytes and the length. -/
def fields : Reader Nack := do
  let _ ← Reader.word16
  let senderSsrc ← Reader.word32
  let mediaSsrc ← Reader.word32
  let pid ← Reader.word16
  let blp ← Reader.word16
  return { senderSsrc, mediaSsrc, pid, blp }

def ofBytes (bytes : List UInt8) : Except NackError Nack :=
  if bytes.length < size then throw (.insufficientData bytes.length)
  else match bytes with
  | first :: kind :: rest =>
    if first.toNat / 64 = 2 ∧ first.toNat % 32 = format ∧ kind = packetType then
      match fields.run rest with
      | some (n, _) => return n
      | none => throw (.insufficientData bytes.length)
    else throw (.notGenericNack (first.toNat / 64) (first.toNat % 32) kind.toNat)
  | _ => throw (.insufficientData bytes.length)

end Nack

namespace NackError

def message : NackError → String
  | insufficientData actual =>
    s!"Insufficient data: expected {Nack.size} bytes, got {actual}"
  | notGenericNack version format packetType =>
    s!"Not a generic NACK (version {version}, fmt {format}, pt {packetType})"

end NackError

end Playout
