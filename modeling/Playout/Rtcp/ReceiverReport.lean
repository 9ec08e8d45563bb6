import Playout.Rtcp.SourceDescription
import Playout.Sequence.Extender

/-!
# Reporting reception (receiver report)

A `ReceiverReport` tells the sender how well its packets arrive, in at most 31 blocks of 24 bytes.
`write` puts it at the end of a buffer, `toBytes` is the packet alone, and `ofBytes` reads it; the
count of lost packets travels in 24 bits of two's complement. `compound` is the report with the
source description that names the receiver.
-/

namespace Playout

/-- Reception figures for one source. -/
structure ReportBlock where
  ssrc : UInt32
  fractionLost : UInt8 := 0
  cumulativeLost : Int := 0
  highest : SeqNumber := ⟨0⟩
  jitter : UInt32 := 0
  /-- Middle 32 bits of the sender's last report time -/
  lastReport : UInt32 := 0
  /-- Time since that report, in 1/65536 s -/
  sinceLastReport : UInt32 := 0
deriving DecidableEq, Inhabited, Repr

/-- What a receiver reports about the sources it listens to. -/
structure ReceiverReport where
  senderSsrc : UInt32
  blocks : List ReportBlock
deriving DecidableEq, Inhabited, Repr

/-- Why bytes are refused as a report, or a report cannot be written. -/
inductive ReportError where
  | insufficientData (expected actual : Nat)
  | notReceiverReport (version packetType : Nat)
  | tooManyBlocks (count : Nat)
deriving DecidableEq, Inhabited, Repr

namespace ReportError

def message : ReportError → String
  | insufficientData expected actual =>
    s!"Insufficient data: expected {expected} bytes, got {actual}"
  | notReceiverReport version packetType =>
    s!"Not a receiver report (version {version}, pt {packetType})"
  | tooManyBlocks count => s!"Too many report blocks: {count}"

end ReportError

namespace ReportBlock

open Bytes

def size : Nat := 24

/-- The block of a source whose reception is `r`; jitter and sender reports are not tracked. -/
def ofReception (ssrc : UInt32) (r : Reception) : ReportBlock :=
  { ssrc, fractionLost := r.fractionLost, cumulativeLost := r.cumulativeLost, highest := r.highest }

/-- 24 bits of two's complement, of the nearest value that fits. -/
def lostBits (lost : Int) : Nat := (Extender.clampLost lost % 0x1000000).toNat

/-- The value of 24 bits of two's complement. -/
def lostOfBits (n : Nat) : Int := Int.bmod n 0x1000000

def toBytes (b : ReportBlock) : List UInt8 :=
  word32 b.ssrc ++ [b.fractionLost] ++ encode 3 (lostBits b.cumulativeLost)
    ++ word32 b.highest.raw ++ word32 b.jitter ++ word32 b.lastReport ++ word32 b.sinceLastReport

/-- Append the block, field by field. -/
def write {ε : Type} (b : ReportBlock) : Builder ε Unit := do
  Builder.put (word32 b.ssrc)
  Builder.put [b.fractionLost]
  Builder.put (encode 3 (lostBits b.cumulativeLost))
  Builder.put (word32 b.highest.raw)
  Builder.put (word32 b.jitter)
  Builder.put (word32 b.lastReport)
  Builder.put (word32 b.sinceLastReport)

def reader : Reader ReportBlock := do
  let ssrc ← Reader.word32
  let fractionLost ← Reader.word8
  let lost ← Reader.number 3
  let highest ← Reader.word32
  let jitter ← Reader.word32
  let lastReport ← Reader.word32
  let sinceLastReport ← Reader.word32
  return { ssrc, fractionLost, cumulativeLost := lostOfBits lost, highest := ⟨highest⟩, jitter,
           lastReport, sinceLastReport }

def readMany : Nat → Reader (List ReportBlock)
  | 0 => return []
  | n + 1 => do
    let b ← reader
    let bs ← readMany n
    return b :: bs

end ReportBlock

namespace ReceiverReport

open Bytes

def packetType : UInt8 := 201

/-- Size of the packet before its blocks. -/
def headerSize : Nat := 8

/-- The five bits of the block count hold no more. -/
def maxBlocks : Nat := 31

def size (r : ReceiverReport) : Nat := headerSize + ReportBlock.size * r.blocks.length

/-- The packet, unless it has too many blocks. -/
def toBytes (r : ReceiverReport) : Except ReportError (List UInt8) :=
  if maxBlocks < r.blocks.length then throw (.tooManyBlocks r.blocks.length)
  else return [0x80 + UInt8.ofNat r.blocks.length, packetType] ++ encode 2 (r.size / 4 - 1)
    ++ word32 r.senderSsrc ++ r.blocks.flatMap ReportBlock.toBytes

/-- Append the packet, unless it has too many blocks. -/
def write (r : ReceiverReport) : Builder ReportError Unit := do
  if maxBlocks < r.blocks.length then
    throw (.tooManyBlocks r.blocks.length)
  Builder.put [0x80 + UInt8.ofNat r.blocks.length]
  Builder.put [packetType]
  Builder.put (encode 2 (r.size / 4 - 1))
  Builder.put (word32 r.senderSsrc)
  r.blocks.forM ReportBlock.write

/-- Append the packet and the description of its sender. -/
def writeCompound (r : ReceiverReport) (cname tool : List UInt8) : Builder ReportError Unit := do
  r.write
  SourceDescription.write r.senderSsrc cname tool

/-- The packet followed by the description of its sender. -/
def compound (r : ReceiverReport) (cname tool : List UInt8) : Except ReportError (List UInt8) :=
  match (r.writeCompound cname tool).run [] with
  | .ok () bytes => return bytes
  | .error e _ => throw e

/-- The length, the sender and `count` blocks, behind the two header bytes. -/
def fields (count : Nat) : Reader ReceiverReport := do
  let _ ← Reader.word16
  let senderSsrc ← Reader.word32
  let blocks ← ReportBlock.readMany count
  return { senderSsrc, blocks }

def ofBytes (bytes : List UInt8) : Except ReportError ReceiverReport :=
  if bytes.length < headerSize then throw (.insufficientData headerSize bytes.length)
  else match bytes with
  | first :: kind :: rest =>
    let count := first.toNat % 32
    let expected := headerSize + ReportBlock.size * count
    -- version and kind are judged before the length that the block count asks for
    if first.toNat / 64 ≠ 2 ∨ kind ≠ packetType then
      throw (.notReceiverReport (first.toNat / 64) kind.toNat)
    else match (fields count).run rest with
    | some (r, _) => return r
    | none => throw (.insufficientData expected bytes.length)
  | _ => throw (.insufficientData headerSize bytes.length)

end ReceiverReport

end Playout
