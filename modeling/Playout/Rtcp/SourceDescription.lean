import Playout.Bytes.BigEndian

/-!
# Naming the receiver (source description)

A source description carries text items for one source: the canonical name and the tool. Each item
is a kind, a length and at most 255 bytes of text. A zero byte ends the items, and further zeros
fill the packet up to a whole number of 32-bit words. `write` puts the packet at the end of a
buffer, `toBytes` is the packet alone.
-/

namespace Playout.SourceDescription

open Bytes

def packetType : UInt8 := 202

/-- Item kind of the canonical name. -/
def cnameKind : UInt8 := 1

def toolKind : UInt8 := 6

def maxText : Nat := 255

/-- One item; text that is too long is cut. -/
def item (kind : UInt8) (text : List UInt8) : List UInt8 :=
  let kept := text.take maxText
  kind :: UInt8.ofNat kept.length :: kept

/-- One to four zero bytes: the end mark and the fill up to a word boundary. -/
def ending (size : Nat) : List UInt8 := List.replicate (4 - size % 4) 0

/-- The chunk of a source: its number, its items and the end. -/
def chunk (ssrc : UInt32) (cname tool : List UInt8) : List UInt8 :=
  let items := item cnameKind cname ++ item toolKind tool
  word32 ssrc ++ items ++ ending items.length

/-- The packet, with its length in words less one in the header. -/
def toBytes (ssrc : UInt32) (cname tool : List UInt8) : List UInt8 :=
  let body := chunk ssrc cname tool
  [0x81, packetType] ++ encode 2 (body.length / 4) ++ body

/-- Append one item. -/
def writeItem {ε : Type} (kind : UInt8) (text : List UInt8) : Builder ε Unit := do
  let kept := text.take maxText
  Builder.put [kind]
  Builder.put [UInt8.ofNat kept.length]
  Builder.put kept

/-- Zeros up to a whole number of words behind `start`. -/
def fillWord (start : Nat) (buffer : List UInt8) : List UInt8 :=
  if (buffer.length - start) % 4 = 0 then buffer else fillWord start (buffer ++ [0])
termination_by (4 - (buffer.length - start) % 4) % 4
decreasing_by
  rw [List.length_append, List.length_singleton]
  omega

/-- Append the packet. Its length is not known before the end, and is put into the header then. -/
def write {ε : Type} (ssrc : UInt32) (cname tool : List UInt8) : Builder ε Unit := do
  let start := (← get).length
  Builder.put [0x81]
  Builder.put [packetType]
  Builder.put (word16 0)
  Builder.put (word32 ssrc)
  writeItem cnameKind cname
  writeItem toolKind tool
  Builder.put [0]
  modify (fillWord start)
  let words := ((← get).length - start) / 4 - 1
  Builder.overwrite (start + 2) (encode 2 words)

end Playout.SourceDescription
