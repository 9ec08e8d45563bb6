import Mathlib.Algebra.GroupWithZero.Nat
import Mathlib.Data.List.Induction
import Playout.Proofs.Receiver.Calls
import Playout.Proofs.Reorder.Contents
import Playout.Proofs.Rtp.Frame

/-!
# What becomes of the datagrams

Every datagram that a receiver has counted is in one of seven places. It could not be read, it came
from another source, or its number had jumped too far; or else its unit repeated one that waited,
was dropped as stale, was handed out, or still waits. A unit changes its place when the buffer takes
it in and at a turn of the buffer, never in between:

    accounted_insert  : a unit that is put in has a place, also if its number waits already
    Outcome.accounted : a turn moves units from one place to another

`Accounts` says this of a receiver together with a log of all it handed out and wrote.
`run_accounts` says it of every run, and what becomes of the datagrams of other sources.
-/

namespace Playout

namespace ReorderBuffer

/-! ## What is handed out at a time -/

/-- The units that are handed out at `now`, turn by turn, until a turn brings none. -/
def due (b : ReorderBuffer) (now : Int) : List MediaUnit :=
  match _h : b.next now with
  | (⟨none, _⟩, _) => []
  | (⟨some d, _⟩, b') => d.unit :: b'.due now
termination_by b.pending.length
decreasing_by exact pending_next_length_lt _h

/-- Nothing is due if the first turn brings nothing. -/
theorem due_of_none {b : ReorderBuffer} {now : Int} (h : (b.next now).1.delivery = none) :
    b.due now = [] := by
  rw [due]
  split
  · rfl
  · next heq =>
    rw [heq] at h
    cases h

/-- What a turn brings is due, and so is what the next turns bring. -/
theorem due_of_some {b : ReorderBuffer} {now : Int} {d : Delivery}
    (h : (b.next now).1.delivery = some d) : b.due now = d.unit :: (b.next now).2.due now := by
  rw [due]
  split
  · next heq =>
    rw [heq] at h
    cases h
  · next heq =>
    rw [heq] at h ⊢
    cases h
    rfl

end ReorderBuffer

/-- An output that keeps what it was given, write by write. -/
def ByteSink.logged {ω ε : Type} (write : ByteSink ω ε) : ByteSink (ω × List (List UInt8)) ε :=
  fun bytes s => ((write bytes s.1).1, (write bytes s.1).2, s.2 ++ [bytes])

/-- An output that does not fail, whatever is written to it. -/
def ByteSink.Reliable {ω ε : Type} (write : ByteSink ω ε) (out : ω) : Prop :=
  ∀ (before : List (List UInt8)) (bytes : List UInt8),
    (write bytes (before.foldl (fun out bytes => (write bytes out).2) out)).1 = .ok ()

section Reliable

variable {ω ε : Type} {write : ByteSink ω ε} {out : ω}

/-- A reliable output takes what is written to it, -/
theorem ByteSink.Reliable.ok (h : write.Reliable out) (bytes : List UInt8) :
    (write bytes out).1 = .ok () := h [] bytes

/-- and is reliable afterwards. -/
theorem ByteSink.Reliable.next (h : write.Reliable out) (bytes : List UInt8) :
    write.Reliable (write bytes out).2 := fun before => h (bytes :: before)

/-- An output with unlimited room. -/
theorem BoundedOutput.reliable (written : List UInt8) :
    ByteSink.Reliable BoundedOutput.write ⟨none, written⟩ := by
  intro before bytes
  induction before generalizing written with
  | nil => rw [List.foldl_nil, BoundedOutput.write_unlimited]
  | cons b before ih =>
    rw [List.foldl_cons, BoundedOutput.write_unlimited]
    exact ih _

end Reliable

namespace Receiver

/-! ## Datagrams of any kind -/

section Accept

variable {r : Receiver} {datagram : List UInt8} {p : RtpPacket}

/-- The receiver that has counted a datagram. -/
def counted (r : Receiver) (datagram : List UInt8) : Receiver :=
  { r with packets := r.packets + 1, bytesIn := r.bytesIn + datagram.length }

/-- A datagram of another source changes nothing but three counters. -/
theorem accept_foreign (hparse : RtpPacket.parse datagram = .ok p)
    (hssrc : r.mediaSsrc.getD p.ssrc ≠ p.ssrc) :
    r.accept datagram = (.ok (), { r.counted datagram with foreign := r.foreign + 1 }) := by
  unfold accept
  rw [hparse]
  dsimp only
  rw [if_neg hssrc]
  rfl

/-- The three ways in which a datagram is taken in. -/
theorem accept_ends {Q : Receiver → Prop}
    (unreadable : ∀ e, RtpPacket.parse datagram = .error e →
      Q { r.counted datagram with malformed := r.malformed + 1 })
    (heard : ∀ p, RtpPacket.parse datagram = .ok p → r.mediaSsrc.getD p.ssrc = p.ssrc →
      Q ((r.locked datagram p.ssrc).acceptPacket p))
    (unheard : ∀ p, RtpPacket.parse datagram = .ok p → r.mediaSsrc.getD p.ssrc ≠ p.ssrc →
      Q { r.counted datagram with foreign := r.foreign + 1 }) :
    Q (r.accept datagram).2 := by
  cases hparse : RtpPacket.parse datagram with
  | error e =>
    unfold accept
    rw [hparse]
    exact unreadable e hparse
  | ok p =>
    by_cases hssrc : r.mediaSsrc.getD p.ssrc = p.ssrc
    · rw [accept_packet hparse hssrc]
      exact heard p hparse hssrc
    · rw [accept_foreign hparse hssrc]
      exact unheard p hparse hssrc

/-- What a packet of the stream does not touch. -/
theorem acceptPacket_frame (r : Receiver) (p : RtpPacket) :
    (r.acceptPacket p).packets = r.packets ∧ (r.acceptPacket p).mediaSsrc = r.mediaSsrc := by
  unfold acceptPacket
  split <;> exact ⟨rfl, rfl⟩

/-- Every datagram is counted. -/
theorem accept_packets (r : Receiver) (datagram : List UInt8) :
    (r.accept datagram).2.packets = r.packets + 1 :=
  accept_ends (Q := fun r' => r'.packets = r.packets + 1) (fun _ _ => rfl)
    (fun p _ _ => (acceptPacket_frame _ p).1) fun _ _ _ => rfl

/-- The source of a datagram that can be read. -/
def sourceOf? (datagram : List UInt8) : Option UInt32 :=
  match RtpPacket.parse datagram with
  | .ok p => some p.ssrc
  | .error _ => none

/-- A receiver listens to the source that it heard first. -/
theorem accept_mediaSsrc (r : Receiver) (datagram : List UInt8) :
    (r.accept datagram).2.mediaSsrc = r.mediaSsrc.or (sourceOf? datagram) := by
  apply accept_ends (Q := fun r' => r'.mediaSsrc = r.mediaSsrc.or (sourceOf? datagram))
  · intro e hparse
    simp [sourceOf?, hparse, counted]
  · intro p hparse hssrc
    rw [(acceptPacket_frame _ p).2]
    -- heard, so its source is that of the receiver, or there was none yet
    cases hlocked : r.mediaSsrc with
    | none => simp [sourceOf?, hparse, locked]
    | some ssrc => simpa [hlocked, locked] using hssrc.symm
  · intro p hparse hssrc
    -- a receiver without a source hears every packet
    cases hlocked : r.mediaSsrc with
    | none => simp [hlocked] at hssrc
    | some ssrc => simp [counted, hlocked]

end Accept

/-! ## The accounts -/

/-- All that a receiver has counted, handed out and written adds up. -/
structure Accounts (r : Receiver) (handedOut : List MediaUnit) (written : List (List UInt8)) :
    Prop where
  balanced : r.packets = r.malformed + r.foreign + r.rejected + r.buffer.accounted
  delivered : r.buffer.counts.delivered = handedOut.length
  bytesOut : r.bytesOut = (handedOut.map (·.size)).sum
  written : written = handedOut.map (·.payload)

namespace Accounts

variable {r : Receiver} {handedOut : List MediaUnit} {written : List (List UInt8)}

theorem new (grace : Int) (senderSsrc : UInt32) : (Receiver.new grace senderSsrc).Accounts [] [] :=
  ⟨rfl, rfl, rfl, rfl⟩

/-- A packet is rejected, or its unit has a place in the buffer. -/
theorem acceptPacket (p : RtpPacket) (h : r.buffer.counts.delivered = handedOut.length)
    (hbalanced : r.packets = r.malformed + r.foreign + r.rejected + r.buffer.accounted + 1)
    (hbytes : r.bytesOut = (handedOut.map (·.size)).sum)
    (hwritten : written = handedOut.map (·.payload)) :
    (r.acceptPacket p).Accounts handedOut written := by
  cases hn : (r.extender.extend p.sequence).1 with
  | none => -- the number has jumped
    rw [acceptPacket_of_none hn]
    refine ⟨?_, h, hbytes, hwritten⟩
    show r.packets = r.malformed + r.foreign + (r.rejected + 1) + r.buffer.accounted
    omega
  | some n => -- the unit goes to the buffer, which has a place for it
    rw [acceptPacket_of_some hn]
    refine ⟨?_, (ReorderBuffer.insert_delivered _ _).trans h, hbytes, hwritten⟩
    show r.packets = r.malformed + r.foreign + r.rejected + (r.buffer.insert _).2.accounted
    rw [ReorderBuffer.accounted_insert]
    omega

/-- A datagram is counted in one place. -/
theorem accept (h : r.Accounts handedOut written) (datagram : List UInt8) :
    (r.accept datagram).2.Accounts handedOut written := by
  have hbalanced := h.balanced
  apply accept_ends (Q := fun r' => r'.Accounts handedOut written)
  · intro _ _
    -- not readable, of the stream, or of another source
    refine ⟨?_, h.delivered, h.bytesOut, h.written⟩
    show r.packets + 1 = r.malformed + 1 + r.foreign + r.rejected + r.buffer.accounted
    omega
  · intro p _ _
    refine acceptPacket p h.delivered ?_ h.bytesOut h.written
    show r.packets + 1 = r.malformed + r.foreign + r.rejected + r.buffer.accounted + 1
    omega
  · intro _ _ _
    refine ⟨?_, h.delivered, h.bytesOut, h.written⟩
    show r.packets + 1 = r.malformed + (r.foreign + 1) + r.rejected + r.buffer.accounted
    omega

/-- A turn that hands a unit out, and its writing, are counted together. -/
theorem turn (h : r.Accounts handedOut written) (now : Int) {d : Delivery}
    (hd : (r.buffer.next now).1.delivery = some d) : ((r.turn now).wrote d).Accounts
      (handedOut ++ [d.unit]) (written ++ [d.unit.payload]) := by
  have o := ReorderBuffer.next_outcome r.buffer now
  refine ⟨?_, ?_, ?_, ?_⟩
  · show r.packets = r.malformed + r.foreign + r.rejected + (r.buffer.next now).2.accounted
    -- the places of the units in the buffer add up to the same, whatever a turn does
    rw [o.accounted]
    exact h.balanced
  · show (r.buffer.next now).2.counts.delivered = _
    rw [o.delivered, h.delivered, ReorderBuffer.Turn.units, hd]
    simp
  · show r.bytesOut + d.unit.size = _
    simp [h.bytesOut]
  · simp [h.written]

/-- A turn that hands nothing out changes nothing that is counted here. -/
theorem wait (h : r.Accounts handedOut written) (now : Int)
    (hd : (r.buffer.next now).1.delivery = none) : (r.turn now).Accounts handedOut written := by
  have o := ReorderBuffer.next_outcome r.buffer now
  refine ⟨?_, ?_, h.bytesOut, h.written⟩
  · show r.packets = r.malformed + r.foreign + r.rejected + (r.buffer.next now).2.accounted
    rw [o.accounted]
    exact h.balanced
  · show (r.buffer.next now).2.counts.delivered = _
    rw [o.delivered, h.delivered, ReorderBuffer.Turn.units, hd]
    rfl

/-- A drain writes all that is due, if no write fails. -/
theorem drain {ω ε : Type} {write : ByteSink ω ε} {out : ω} (hreliable : write.Reliable out)
    (h : r.Accounts handedOut written) (now : Int) (count : Nat) :
    let drained := (r.drain write.logged now (out, written) count).2
    drained.1.Accounts (handedOut ++ r.buffer.due now) drained.2.2 ∧
      write.Reliable drained.2.1 := by
  -- in front of every turn, what is due is what was handed out since, and what is due then
  refine drain_ends write.logged now
    (P := fun r' out => (∃ passed, r.buffer.due now = passed ++ r'.buffer.due now ∧
      r'.Accounts (handedOut ++ passed) out.2) ∧ write.Reliable out.1)
    (Q := fun r' out => r'.Accounts (handedOut ++ r.buffer.due now) out.2 ∧ write.Reliable out.1)
    ?_ ?_ ?_ ⟨⟨[], rfl, (List.append_nil handedOut).symm ▸ h⟩, hreliable⟩ count
  · rintro r' out ⟨⟨passed, hdue, hr'⟩, hout⟩ hd
    rw [hdue, ReorderBuffer.due_of_none hd, List.append_nil]
    exact ⟨hr'.wait now hd, hout⟩
  · rintro r' ⟨out, log⟩ d e out' ⟨-, hout⟩ - hfails
    rw [ByteSink.logged, hout.ok, Prod.mk.injEq] at hfails
    cases hfails.1
  · rintro r' ⟨out, log⟩ d out' ⟨⟨passed, hdue, hr'⟩, hout⟩ hd hwrites
    obtain ⟨-, rfl⟩ := Prod.mk.inj hwrites
    refine ⟨⟨passed ++ [d.unit], ?_, ?_⟩, hout.next d.unit.payload⟩
    · rw [hdue, ReorderBuffer.due_of_some hd, List.append_assoc]
      rfl
    · rw [← List.append_assoc]
      exact hr'.turn now hd

/-- Feedback is counted apart. -/
theorem takeNacks (h : r.Accounts handedOut written) :
    r.takeNacks.2.Accounts handedOut written := by
  unfold Receiver.takeNacks
  split
  · exact ⟨h.balanced, h.delivered, h.bytesOut, h.written⟩
  · exact ⟨h.balanced, h.delivered, h.bytesOut, h.written⟩

/-- So are reports. -/
theorem report (h : r.Accounts handedOut written) : r.report.2.Accounts handedOut written := by
  unfold Receiver.report
  split
  · exact ⟨h.balanced, h.delivered, h.bytesOut, h.written⟩
  · exact h

end Accounts

/-! ## Runs -/

/-- A call of a receiver. Its statistics may be asked for in between; that is no call, because it
leaves the receiver as it is. -/
inductive Call where
  | datagram (bytes : List UInt8)
  | drain (now : Int)
  | takeNacks
  | report
deriving DecidableEq, Inhabited, Repr

/-- The bytes that a call brings in. -/
def Call.datagram? : Call → Option (List UInt8)
  | .datagram bytes => some bytes
  | _ => none

/-- The datagrams of a run, in the order of their coming. -/
def datagrams (calls : List Call) : List (List UInt8) := calls.filterMap Call.datagram?

/-- One more call. -/
theorem datagrams_concat (calls : List Call) (call : Call) :
    datagrams (calls ++ [call]) = datagrams calls ++ call.datagram?.toList := by
  unfold datagrams
  rw [List.filterMap_append]
  cases h : call.datagram? <;> simp [h]

/-- A receiver and its output, and what has passed between them. -/
structure Course (ω : Type) where
  receiver : Receiver
  out : ω
  /-- What the output was given, write by write -/
  written : List (List UInt8) := []
  /-- The units that were handed out, the oldest first -/
  handedOut : List MediaUnit := []

namespace Course

variable {ω ε : Type} (write : ByteSink ω ε)

/-- Every call keeps the accounts. -/
def perform (c : Course ω) : Call → Course ω
  | .datagram bytes => { c with receiver := (c.receiver.accept bytes).2 }
  | .drain now =>
    let (_, receiver, out, written) := c.receiver.drain write.logged now (c.out, c.written) 0
    { receiver, out, written, handedOut := c.handedOut ++ c.receiver.buffer.due now }
  | .takeNacks => { c with receiver := c.receiver.takeNacks.2 }
  | .report => { c with receiver := c.receiver.report.2 }

/-- Calls, one after the other, of a new receiver. -/
def run (grace : Int) (senderSsrc : UInt32) (out : ω) (calls : List Call) : Course ω :=
  calls.foldl (perform write) { receiver := .new grace senderSsrc, out }

/-- One more call. -/
theorem run_concat (grace : Int) (senderSsrc : UInt32) (out : ω) (calls : List Call) (c : Call) :
    run write grace senderSsrc out (calls ++ [c]) =
      (run write grace senderSsrc out calls).perform write c := by
  unfold run
  rw [List.foldl_append, List.foldl_cons, List.foldl_nil]

end Course

section Runs

variable {ω ε : Type} {write : ByteSink ω ε}

/-- A drain takes nothing in. -/
theorem drain_intake (r : Receiver) (now : Int) (out : ω) (count : Nat) :
    (r.drain write now out count).2.1.packets = r.packets ∧
      (r.drain write now out count).2.1.mediaSsrc = r.mediaSsrc :=
  drain_ends write now (P := fun r' _ => r'.packets = r.packets ∧ r'.mediaSsrc = r.mediaSsrc)
    (Q := fun r' _ => r'.packets = r.packets ∧ r'.mediaSsrc = r.mediaSsrc) (fun _ _ h _ => h)
    (fun _ _ _ _ _ h _ _ => h) (fun _ _ _ _ h _ _ => h) ⟨rfl, rfl⟩ count

/-- Feedback brings nothing in. -/
theorem takeNacks_intake (r : Receiver) :
    r.takeNacks.2.packets = r.packets ∧ r.takeNacks.2.mediaSsrc = r.mediaSsrc := by
  unfold takeNacks
  split <;> simp_all

/-- Neither does a report. -/
theorem report_intake (r : Receiver) :
    r.report.2.packets = r.packets ∧ r.report.2.mediaSsrc = r.mediaSsrc := by
  unfold report
  split <;> simp_all

/-- The accounts of a run add up, every datagram has been counted, and the receiver listens to the
source of the first that could be read. -/
structure Course.Sound (write : ByteSink ω ε) (c : Course ω) (calls : List Call) : Prop where
  reliable : write.Reliable c.out
  accounts : c.receiver.Accounts c.handedOut c.written
  packets : c.receiver.packets = (datagrams calls).length
  source : c.receiver.mediaSsrc = (datagrams calls).findSome? sourceOf?

namespace Course.Sound

variable {c c' : Course ω} {calls : List Call}

/-- A datagram is counted, and the first that can be read fixes the source. -/
theorem datagram (h : c.Sound write calls) (bytes : List UInt8) :
    Course.Sound write { c with receiver := (c.receiver.accept bytes).2 }
      (calls ++ [.datagram bytes]) where
  reliable := h.reliable
  accounts := h.accounts.accept bytes
  packets := by
    rw [accept_packets, h.packets, datagrams_concat, List.length_append]
    rfl
  source := by
    rw [accept_mediaSsrc, h.source, datagrams_concat, List.findSome?_append]
    simp [Call.datagram?]

/-- A call that brings nothing in. -/
theorem quiet (h : c.Sound write calls) {call : Call} (hcall : call.datagram? = none)
    (hreliable : write.Reliable c'.out)
    (haccounts : c'.receiver.Accounts c'.handedOut c'.written)
    (hsame : c'.receiver.packets = c.receiver.packets ∧
      c'.receiver.mediaSsrc = c.receiver.mediaSsrc) : c'.Sound write (calls ++ [call]) := by
  have hcalls : datagrams (calls ++ [call]) = datagrams calls := by
    rw [datagrams_concat, hcall, Option.toList_none, List.append_nil]
  refine ⟨hreliable, haccounts, ?_, ?_⟩
  · rw [hcalls, hsame.1]
    exact h.packets
  · rw [hcalls, hsame.2]
    exact h.source

theorem perform (h : c.Sound write calls) (call : Call) :
    (c.perform write call).Sound write (calls ++ [call]) := by
  cases call with
  | datagram bytes => exact h.datagram bytes
  | drain now =>
    obtain ⟨haccounts, hreliable⟩ := h.accounts.drain h.reliable now 0
    exact h.quiet rfl hreliable haccounts (drain_intake c.receiver now (c.out, c.written) 0)
  | takeNacks => exact h.quiet rfl h.reliable h.accounts.takeNacks (takeNacks_intake c.receiver)
  | report => exact h.quiet rfl h.reliable h.accounts.report (report_intake c.receiver)

end Course.Sound

/-- So they add up after any calls, by induction on the last one. -/
theorem Course.run_sound {out : ω} (hreliable : write.Reliable out) (grace : Int)
    (senderSsrc : UInt32) (calls : List Call) :
    (run write grace senderSsrc out calls).Sound write calls := by
  induction calls using List.reverseRecOn with
  | nil => exact ⟨hreliable, .new grace senderSsrc, rfl, rfl⟩
  | append_singleton calls call ih =>
    rw [run_concat]
    exact ih.perform call

/-- **Every datagram is accounted for.** After any run of calls of a receiver, with any bytes, at
any times and with an output that does not fail, its statistics say what has become of each
datagram: it could not be read, came from another source, or its number had jumped too far; or its
unit was handed out, was a duplicate or stale, or still waits. The bytes that went out are those of
the units that were handed out, one write for each, and so those that the output was given. The
receiver listens to the source of the first datagram that could be read, and a datagram of any other
source changes nothing but the counts of packets, of bytes and of foreign packets. -/
theorem run_accounts {out : ω} (hreliable : write.Reliable out) (grace : Int)
    (senderSsrc : UInt32) (calls : List Call) :
    let c := Course.run write grace senderSsrc out calls
    let s := c.receiver.statistics
    s.packets = (datagrams calls).length ∧
      s.packets = s.malformed + s.foreign + s.rejected +
        s.reorder.delivered + s.reorder.duplicates + s.reorder.stale + s.pending ∧
      s.reorder.delivered = c.handedOut.length ∧
      s.bytesOut = (c.handedOut.map (·.size)).sum ∧
      c.written = c.handedOut.map (·.payload) ∧
      s.bytesOut = c.written.flatten.length ∧
      c.receiver.mediaSsrc = (datagrams calls).findSome? sourceOf? ∧
      ∀ datagram p ssrc, RtpPacket.parse datagram = .ok p →
        c.receiver.mediaSsrc = some ssrc → p.ssrc ≠ ssrc →
        c.receiver.accept datagram = (.ok (), { c.receiver with
          packets := c.receiver.packets + 1
          bytesIn := c.receiver.bytesIn + datagram.length
          foreign := c.receiver.foreign + 1 }) := by
  intro c s
  obtain ⟨-, haccounts, hpackets, hsource⟩ : c.Sound write calls :=
    Course.run_sound hreliable grace senderSsrc calls
  have hbalanced := haccounts.balanced
  refine ⟨hpackets, ?_, haccounts.delivered, haccounts.bytesOut, haccounts.written, ?_, hsource, ?_⟩
  -- the places of the buffer, one by one
  · show c.receiver.packets = c.receiver.malformed + c.receiver.foreign + c.receiver.rejected +
      c.receiver.buffer.counts.delivered + c.receiver.buffer.counts.duplicates +
      c.receiver.buffer.counts.stale + c.receiver.buffer.pending.length
    rw [ReorderBuffer.accounted] at hbalanced
    omega
  · show c.receiver.bytesOut = _
    rw [haccounts.bytesOut, haccounts.written, List.length_flatten, List.map_map]
    rfl
  -- a foreign datagram moves two counts, and nothing else
  · intro datagram p ssrc hparse hlocked hother
    apply accept_foreign hparse
    rw [hlocked]
    exact hother.symm

end Runs

/-- A packet of three bytes with a number, from a source. -/
def piece (ssrc : UInt32) (sequence : UInt16) : List UInt8 :=
  (RtpPacket.plain 96 sequence 0 ssrc [1, 2, sequence.toUInt8]).toBytes

/-- Datagrams that meet every fate: two units are handed out, one repeats a unit that waits, one
comes after its successor was handed out and one waits behind a gap; one datagram is too short, one
comes from another source and one jumps too far. -/
def everyFate : List Call :=
  [.datagram [0x80], .datagram (piece 7 10), .datagram (piece 8 11), .datagram (piece 7 5000),
    .datagram (piece 7 10), .drain 0, .datagram (piece 7 12), .drain 0, .drain 90, .takeNacks,
    .datagram (piece 7 11), .drain 95, .report, .datagram (piece 7 14), .drain 99]

/-- Of the eight datagrams one is in each place, and two were handed out. -/
theorem everyFate_accounted :
    let c := Course.run BoundedOutput.write 50 1 ⟨none, []⟩ everyFate
    let s := c.receiver.statistics
    ByteSink.Reliable BoundedOutput.write ⟨none, []⟩ ∧ s.packets = 8 ∧
      [s.malformed, s.foreign, s.rejected, s.reorder.delivered, s.reorder.duplicates,
        s.reorder.stale, s.pending] = [1, 1, 1, 2, 1, 1, 1] ∧
      s.bytesOut = 6 ∧ c.written = [[1, 2, 10], [1, 2, 12]] ∧
      RtpPacket.parse (piece 8 15) = .ok (.plain 96 15 0 8 [1, 2, 15]) ∧
      c.receiver.mediaSsrc = some 7 ∧
      (c.receiver.accept (piece 8 15)).2.buffer = c.receiver.buffer := by
  intro c s
  have hreliable := BoundedOutput.reliable []
  have hwritten : c.written = [[1, 2, 10], [1, 2, 12]] := by decide +kernel
  have hplaces : [s.malformed, s.foreign, s.rejected, s.reorder.delivered, s.reorder.duplicates,
      s.reorder.stale, s.pending] = [1, 1, 1, 2, 1, 1, 1] := by decide +kernel
  have hparse : RtpPacket.parse (piece 8 15) = .ok (.plain 96 15 0 8 [1, 2, 15]) :=
    RtpPacket.parse_toBytes _
  have hlocked : c.receiver.mediaSsrc = some 7 := by decide +kernel
  -- sums and bytes follow from the places, which are computed
  obtain ⟨hpackets, -, -, -, -, hbytes, -, hforeign⟩ := run_accounts hreliable 50 1 everyFate
  refine ⟨hreliable, hpackets, hplaces, ?_, hwritten, hparse, hlocked, ?_⟩
  · rw [hwritten] at hbytes
    exact hbytes
  · rw [hforeign _ _ 7 hparse hlocked (by decide)]

end Receiver

end Playout
