import Playout.Bytes.BigEndian
import Playout.Ntp.Timestamp

/-!
# Time requests and replies

Requests and replies share one 48-byte form. Byte 0 packs three small fields, byte 1 is the
stratum, bytes 2 to 23 carry nothing that is used here, and three timestamps end the packet.
-/

namespace Playout.Ntp

/-- The fields of a time packet that are used. -/
structure Packet where
  /-- Two bits -/
  leap : UInt8
  /-- Three bits -/
  version : UInt8
  /-- Three bits -/
  mode : UInt8
  stratum : UInt8
  /-- The request's transmit time, echoed by the server -/
  originate : Timestamp := ⟨0⟩
  /-- When the request reached the server -/
  receive : Timestamp := ⟨0⟩
  /-- When this packet was sent -/
  transmit : Timestamp := ⟨0⟩
deriving DecidableEq, Inhabited, Repr

/-- Why bytes are refused as a time packet: there are too few. -/
structure PacketError where
  actual : Nat
deriving DecidableEq, Inhabited, Repr

namespace Packet

open Bytes

def size : Nat := 48

def clientMode : UInt8 := 3

def serverMode : UInt8 := 4

/-- The request sent at `transmit`. -/
def request (transmit : Timestamp) : Packet :=
  { leap := 0, version := 3, mode := clientMode, stratum := 0, transmit }

/-- The first byte: each field takes as many of its low bits as it has. -/
def flags (p : Packet) : UInt8 := p.leap % 4 * 64 + p.version % 8 * 8 + p.mode % 8

def toBytes (p : Packet) : List UInt8 :=
  [p.flags, p.stratum] ++ List.replicate 22 0
    ++ word64 p.originate.raw ++ word64 p.receive.raw ++ word64 p.transmit.raw

/-- The three timestamps behind the unused bytes. -/
def times : Reader (Timestamp × Timestamp × Timestamp) := do
  let _ ← Reader.bytes 22
  let originate ← Reader.word64
  let receive ← Reader.word64
  let transmit ← Reader.word64
  return (⟨originate⟩, ⟨receive⟩, ⟨transmit⟩)

def ofBytes (bytes : List UInt8) : Except PacketError Packet :=
  match bytes with
  | first :: stratum :: rest =>
    match times.run rest with
    | some ((originate, receive, transmit), _) =>
      return { leap := first / 64, version := first / 8 % 8, mode := first % 8, stratum,
               originate, receive, transmit }
    | none => throw ⟨bytes.length⟩
  | _ => throw ⟨bytes.length⟩

end Packet

namespace PacketError

def message (e : PacketError) : String :=
  s!"Insufficient data: expected {Packet.size} bytes, got {e.actual}"

end PacketError

end Playout.Ntp
