import Playout.Receiver.Statistics
import Playout.Rtp.Packet
import Playout.Rtcp.Nack
import Playout.Rtcp.ReceiverReport

/-!
# Receiving one stream

A `Receiver` takes datagrams in and hands media out in order. It listens to the source of the
first datagram that it understands, widens the packet numbers, and lets a reorder buffer
decide when each unit leaves. What the buffer asks for becomes `Nack`s, what the extender
counts becomes reports.
-/

namespace Playout

structure Receiver where
  /-- Our own source number, which signs the feedback -/
  senderSsrc : UInt32
  buffer : ReorderBuffer
  extender : Extender := {}
  /-- What the buffer said since the last `takeNacks` -/
  events : List LossEvent := []
  /-- The source that is received -/
  mediaSsrc : Option UInt32 := none
  packets : Nat := 0
  bytesIn : Nat := 0
  bytesOut : Nat := 0
  malformed : Nat := 0
  foreign : Nat := 0
  rejected : Nat := 0
  nacksSent : Nat := 0
deriving DecidableEq, Inhabited, Repr

/-- An output with state `ω` that takes a row of bytes whole, or fails. -/
abbrev ByteSink (ω ε : Type) := List UInt8 → ω → Except ε Unit × ω

namespace Receiver

/-- A receiver that waits `grace` microseconds for a missing packet. -/
def new (grace : Int) (senderSsrc : UInt32) : Receiver := { senderSsrc, buffer := { grace } }

/-! ### Datagrams in -/

/-- Take in a packet of the stream that is received. -/
def acceptPacket (r : Receiver) (p : RtpPacket) : Receiver :=
  match r.extender.extend p.sequence with
  | (some n, x) => { r with extender := x, buffer := (r.buffer.insert (p.toUnit n 0)).2 }
  | (none, x) => { r with extender := x, rejected := r.rejected + 1 }

/-- Take in a datagram; one that cannot be read is counted and its fault answered. -/
def accept (r : Receiver) (datagram : List UInt8) : Except RtpError Unit × Receiver :=
  let r := { r with packets := r.packets + 1, bytesIn := r.bytesIn + datagram.length }
  match RtpPacket.parse datagram with
  | .error e => (throw e, { r with malformed := r.malformed + 1 })
  | .ok p =>
    -- the first datagram that can be read fixes the source
    if r.mediaSsrc.getD p.ssrc = p.ssrc then
      (return, { r with mediaSsrc := some p.ssrc }.acceptPacket p)
    else (return, { r with foreign := r.foreign + 1 })

/-! ### Media out -/

/-- Write every unit that the buffer hands out at `now`, and count them. A unit whose writing
fails is gone from the buffer. -/
def drain {ω ε : Type} (write : ByteSink ω ε) (r : Receiver) (now : Int) (out : ω) (count : Nat) :
    Except ε Nat × Receiver × ω :=
  match _h : r.buffer.next now with
  | (⟨none, event⟩, b) =>
    (return count, { r with buffer := b, events := r.events ++ event.toList }, out)
  | (⟨some d, event⟩, b) =>
    let r' := { r with buffer := b, events := r.events ++ event.toList }
    match write d.unit.payload out with
    | (.error e, out) => (throw e, r', out)
    | (.ok (), out) =>
      drain write { r' with bytesOut := r'.bytesOut + d.unit.size } now out (count + 1)
termination_by r.buffer.pending.length
decreasing_by exact ReorderBuffer.pending_next_length_lt _h

/-! ### Feedback -/

/-- The requests since the last call, as packets to send. -/
def takeNacks (r : Receiver) : List Nack × Receiver :=
  match r.mediaSsrc with
  | none => ([], { r with events := [] })
  | some media =>
    -- what was given up has been counted by the buffer and is not asked for
    let nacks := r.events.filterMap fun
      | .request n => some (.single r.senderSsrc media n.wire)
      | .lost _ _ => none
    (nacks, { r with events := [], nacksSent := r.nacksSent + nacks.length })

/-- A report on the stream, once it is received; the next reporting interval begins. -/
def report (r : Receiver) : Option ReceiverReport × Receiver :=
  match r.mediaSsrc, r.extender.highest? with
  | some media, some _ =>
    let (reception, x) := r.extender.report
    (some ⟨r.senderSsrc, [.ofReception media reception]⟩, { r with extender := x })
  | _, _ => (none, r)

/-- When the buffer will next give a gap up. -/
def nextDeadline? (r : Receiver) : Option Int := r.buffer.skipDeadline?

/-- The counters now; the loss figures cover the open reporting interval. -/
def statistics (r : Receiver) : ReceiverStatistics where
  packets := r.packets
  bytesIn := r.bytesIn
  bytesOut := r.bytesOut
  malformed := r.malformed
  foreign := r.foreign
  rejected := r.rejected
  nacksSent := r.nacksSent
  pending := r.buffer.pending.length
  reorder := r.buffer.counts
  reception := r.extender.highest?.map fun _ => r.extender.peek

end Receiver

/-! ### An output that fills up

A place for bytes that may have limited room, such as a pipe nobody reads from. What does not fit
is lost, and then the write fails. -/

/-- An output; without `room` it takes everything. -/
structure BoundedOutput where
  room : Option Nat
  written : List UInt8 := []
deriving DecidableEq, Inhabited, Repr

namespace BoundedOutput

/-- Take as many bytes as there is room for. -/
def write : ByteSink BoundedOutput String := fun bs out =>
  let taken := match out.room with
    | some n => bs.take n
    | none => bs
  let out := { room := out.room.map (· - taken.length), written := out.written ++ taken }
  (if taken.length = bs.length then return else throw "output full", out)

end BoundedOutput

end Playout
