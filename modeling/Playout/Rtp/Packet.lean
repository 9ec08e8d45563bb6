import Playout.Bytes.BigEndian
import Playout.Sequence.Number

/-!
# Media datagrams (RTP)

A datagram is a 12-byte header, the list of contributing sources, an optional header
extension, the payload, and an optional tail of padding whose last byte gives its length.
`parse` accepts exactly the datagrams that fall into these parts without overlap and keeps
the fields that playback needs; `toBytes` writes a packet with the fixed header alone.
-/

namespace Playout

/-- What a datagram brings. -/
structure RtpPacket where
  payloadType : UInt8
  marker : Bool
  sequence : UInt16
  /-- Sampling time on the 90 kHz media clock -/
  time : UInt32
  /-- The synchronisation source that sends the stream -/
  ssrc : UInt32
  payload : List UInt8
deriving DecidableEq, Inhabited, Repr

/-- Why a datagram is refused. -/
inductive RtpError where
  | tooShort (size : Nat)
  | unsupportedVersion (version : Nat)
  | badPadding (padding size : Nat)
  | truncatedCsrc (count : Nat)
  | truncatedExtension
deriving DecidableEq, Inhabited, Repr

namespace RtpError

def message : RtpError → String
  | tooShort size => s!"Datagram too short for an RTP header: {size} bytes"
  | unsupportedVersion version => s!"Unsupported RTP version {version}"
  | badPadding padding size => s!"Padding length {padding} exceeds datagram of {size} bytes"
  | truncatedCsrc count => s!"CSRC list of {count} entries does not fit"
  | truncatedExtension => "Header extension does not fit"

end RtpError

namespace RtpPacket

open Bytes

def headerSize : Nat := 12

/-! ### The first header byte -/

/-- Protocol version, the two highest bits. -/
def versionOf (first : UInt8) : Nat := first.toNat / 64

def hasPadding (first : UInt8) : Bool := first.toNat / 32 % 2 = 1

def hasExtension (first : UInt8) : Bool := first.toNat / 16 % 2 = 1

/-- The number of contributing sources, the four lowest bits. -/
def csrcCount (first : UInt8) : Nat := first.toNat % 16

/-! ### Reading -/

/-- A packet without contributing sources, extension or padding. -/
def plain (payloadType : UInt8) (sequence : UInt16) (time ssrc : UInt32)
    (payload : List UInt8) : RtpPacket :=
  { payloadType := payloadType % 128, marker := false, sequence, time, ssrc, payload }

/-- Drop the padding that the last byte of the datagram counts. -/
def unpad (first : UInt8) (datagram : List UInt8) : Except RtpError (List UInt8) :=
  if hasPadding first then
    -- the last byte of the datagram counts the padding, itself included
    let padding := (datagram.getLastD 0).toNat
    if datagram.length < padding + headerSize then
      throw (.badPadding padding datagram.length)
    else return datagram.take (datagram.length - padding)
  else return datagram

/-- Drop the list of contributing sources from what follows the fixed header. -/
def skipCsrcs (count : Nat) (body : List UInt8) : Except RtpError (List UInt8) :=
  if body.length < 4 * count then throw (.truncatedCsrc count) else return body.drop (4 * count)

/-- Drop the header extension: its length in words stands in its third and fourth byte. -/
def skipExtension (body : List UInt8) : Except RtpError (List UInt8) :=
  if body.length < 4 then throw .truncatedExtension
  else
    let words := decode ((body.drop 2).take 2)
    if body.length < 4 + 4 * words then throw .truncatedExtension
    else return body.drop (4 + 4 * words)

/-- The packet with the given header bytes and payload. -/
def ofHeader (second : UInt8) (header payload : List UInt8) : RtpPacket where
  payloadType := second % 128
  marker := 128 ≤ second
  sequence := UInt16.ofNat (decode ((header.drop 2).take 2))
  time := UInt32.ofNat (decode ((header.drop 4).take 4))
  ssrc := UInt32.ofNat (decode ((header.drop 8).take 4))
  payload := payload

def parse (datagram : List UInt8) : Except RtpError RtpPacket :=
  if datagram.length < headerSize then throw (.tooShort datagram.length)
  else match datagram with
  | first :: second :: _ => do
    if versionOf first ≠ 2 then throw (.unsupportedVersion (versionOf first))
    -- padding goes first, since it may reach into the lists behind the header
    let kept ← unpad first datagram
    let body ← skipCsrcs (csrcCount first) (kept.drop headerSize)
    let payload ← if hasExtension first then skipExtension body else pure body
    return ofHeader second (datagram.take headerSize) payload
  | _ => throw (.tooShort datagram.length)

/-! ### Writing -/

def toBytes (p : RtpPacket) : List UInt8 :=
  [0x80, (if p.marker then 128 else 0) + p.payloadType % 128]
    ++ word16 p.sequence ++ word32 p.time ++ word32 p.ssrc ++ p.payload

/-! ### Times -/

/-- A 90 kHz media time in microseconds, rounded down. -/
def micros (time : UInt32) : Int := time.toNat * 100 / 9

/-- The unit that the packet brings, once its number has been extended. -/
def toUnit (p : RtpPacket) (seq : SeqNumber) (track : Nat) : MediaUnit :=
  { seq, payload := p.payload, pts := micros p.time, track }

end RtpPacket

end Playout
