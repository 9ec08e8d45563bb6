import Playout.Receiver.Basic
import Playout.Proofs.Reorder.Delivery
import Playout.Proofs.Sequence.Reach

/-!
# What the calls of a receiver do

The calls of a receiver are opened here, once. A datagram that brings a packet of the stream goes to
`acceptPacket`, and any other leaves the buffer and the extender alone. A drain is a row of turns of
the buffer: every unit that a turn hands out is written, until a turn brings none or a write fails.
`drain_ends` is the rule for it:

    what a turn keeps whose unit is written, holds when the drain comes to its last turn

`Reachable` lists the receivers that come about by calls. The buffer of each of them is that of a
run of its own (`FollowsRun`).
-/

namespace Playout

namespace BoundedOutput

/-- An output without a limit takes everything. -/
@[simp] theorem write_unlimited (bytes written : List UInt8) :
    write bytes ⟨none, written⟩ = (.ok (), ⟨none, written ++ bytes⟩) := by
  simp only [write, Option.map_none, if_true]
  rfl

end BoundedOutput

namespace Receiver

/-! ## Datagrams -/

section Accept

variable {r : Receiver} {datagram : List UInt8} {p : RtpPacket}

/-- The receiver that has counted a datagram and listens to its source. -/
def locked (r : Receiver) (datagram : List UInt8) (ssrc : UInt32) : Receiver :=
  { r with
    packets := r.packets + 1, bytesIn := r.bytesIn + datagram.length, mediaSsrc := some ssrc }

/-- A packet of the stream is counted, and then taken. -/
theorem accept_packet (hparse : RtpPacket.parse datagram = .ok p)
    (hssrc : r.mediaSsrc.getD p.ssrc = p.ssrc) :
    r.accept datagram = (.ok (), (r.locked datagram p.ssrc).acceptPacket p) := by
  unfold accept
  rw [hparse]
  dsimp only
  rw [if_pos hssrc]
  rfl

/-- A datagram brings a packet of the stream, or leaves the buffer and the extender alone. -/
theorem accept_cases (r : Receiver) (datagram : List UInt8) :
    (∃ p, RtpPacket.parse datagram = .ok p ∧
        r.accept datagram = (.ok (), (r.locked datagram p.ssrc).acceptPacket p)) ∨
      ((r.accept datagram).2.buffer = r.buffer ∧ (r.accept datagram).2.extender = r.extender) := by
  cases hparse : RtpPacket.parse datagram with
  | error e => -- not readable
    right
    unfold accept
    rw [hparse]
    exact ⟨rfl, rfl⟩
  | ok p =>
    by_cases hssrc : r.mediaSsrc.getD p.ssrc = p.ssrc
    · exact .inl ⟨p, rfl, accept_packet hparse hssrc⟩
    · right
      unfold accept
      rw [hparse]
      dsimp only
      rw [if_neg hssrc]
      exact ⟨rfl, rfl⟩

/-- A number that is found goes to the buffer with its unit. -/
theorem acceptPacket_of_some {n : SeqNumber} (h : (r.extender.extend p.sequence).1 = some n) :
    r.acceptPacket p = { r with
      extender := (r.extender.extend p.sequence).2
      buffer := (r.buffer.insert (p.toUnit n 0)).2 } := by
  unfold acceptPacket
  split
  · next heq =>
    rw [heq] at h ⊢
    cases h
    rfl
  · next heq =>
    rw [heq] at h
    cases h

/-- One that is not is counted as rejected. -/
theorem acceptPacket_of_none (h : (r.extender.extend p.sequence).1 = none) :
    r.acceptPacket p = { r with
      extender := (r.extender.extend p.sequence).2, rejected := r.rejected + 1 } := by
  unfold acceptPacket
  split
  · next heq =>
    rw [heq] at h
    cases h
  · next heq => rw [heq]

/-- A packet of the stream whose number is found becomes a unit of the buffer. -/
theorem accept_of_extend {n : SeqNumber} (hparse : RtpPacket.parse datagram = .ok p)
    (hssrc : r.mediaSsrc.getD p.ssrc = p.ssrc)
    (hn : (r.extender.extend p.sequence).1 = some n) :
    r.accept datagram = (.ok (), { r.locked datagram p.ssrc with
      extender := (r.extender.extend p.sequence).2
      buffer := (r.buffer.insert (p.toUnit n 0)).2 }) := by
  rw [accept_packet hparse hssrc]
  exact congrArg _ (acceptPacket_of_some (r := r.locked datagram p.ssrc) hn)

end Accept

/-! ## Drains -/

section Drain

variable {ω ε : Type} (write : ByteSink ω ε) (now : Int)

/-- The receiver after one turn of its buffer. -/
def turn (r : Receiver) (now : Int) : Receiver :=
  { r with
    buffer := (r.buffer.next now).2
    events := r.events ++ (r.buffer.next now).1.event.toList }

/-- The receiver that has counted a unit as written. -/
def wrote (r : Receiver) (d : Delivery) : Receiver :=
  { r with bytesOut := r.bytesOut + d.unit.size }

/-- A turn without a unit is the last one. -/
theorem drain_of_none {r : Receiver} (out : ω) (count : Nat)
    (h : (r.buffer.next now).1.delivery = none) :
    r.drain write now out count = (.ok count, r.turn now, out) := by
  rw [drain]
  split
  · next event b heq =>
    simp only [turn, heq]
    rfl
  · next d event b heq =>
    rw [heq] at h
    cases h

/-- A turn with a unit is followed by its write, and by more turns unless that fails. -/
theorem drain_of_some {r : Receiver} {d : Delivery} (out : ω) (count : Nat)
    (h : (r.buffer.next now).1.delivery = some d) :
    r.drain write now out count =
      match write d.unit.payload out with
      | (.error e, out) => (throw e, r.turn now, out)
      | (.ok (), out) => ((r.turn now).wrote d).drain write now out (count + 1) := by
  rw [drain]
  split
  · next event b heq =>
    rw [heq] at h
    cases h
  · next d' event b heq => -- the turn that the definition takes is this one
    rw [heq] at h
    cases h
    have hturn : r.turn now = { r with buffer := b, events := r.events ++ event.toList } := by
      unfold turn
      rw [heq]
    exact hturn ▸ rfl

/-- A unit that is handed out waits no more, so a drain ends. -/
theorem pending_turn_length_lt {r : Receiver} {now : Int} {d : Delivery}
    (h : (r.buffer.next now).1.delivery = some d) :
    (r.turn now).buffer.pending.length < r.buffer.pending.length := by
  have hnext : r.buffer.next now =
      (⟨some d, (r.buffer.next now).1.event⟩, (r.buffer.next now).2) := by
    rw [← h]
  exact ReorderBuffer.pending_next_length_lt hnext

/-- What a drain keeps and where it ends: `P` holds in front of every turn, and `Q` holds after the
last one, which brings no unit or one that cannot be written. -/
theorem drain_ends {P Q : Receiver → ω → Prop}
    (waits : ∀ r out, P r out → (r.buffer.next now).1.delivery = none → Q (r.turn now) out)
    (fails : ∀ r out d e out', P r out → (r.buffer.next now).1.delivery = some d →
      write d.unit.payload out = (.error e, out') → Q (r.turn now) out')
    (writes : ∀ r out d out', P r out → (r.buffer.next now).1.delivery = some d →
      write d.unit.payload out = (.ok (), out') → P ((r.turn now).wrote d) out')
    {r : Receiver} {out : ω} (h : P r out) (count : Nat) :
    Q (r.drain write now out count).2.1 (r.drain write now out count).2.2 := by
  -- induction on what waits: every unit that is handed out makes it less
  induction hlen : r.buffer.pending.length using Nat.strongRecOn generalizing r out count with
  | ind length ih =>
    cases hd : (r.buffer.next now).1.delivery with
    | none =>
      rw [drain_of_none write now out count hd]
      exact waits r out h hd
    | some d =>
      rw [drain_of_some write now out count hd]
      split
      · next e out' hw => exact fails r out d e out' h hd hw
      · next out' hw =>
        exact ih _ (hlen ▸ pending_turn_length_lt hd) (writes r out d out' h hd hw) _ rfl

end Drain

/-! ## Feedback -/

@[simp] theorem takeNacks_buffer (r : Receiver) : r.takeNacks.2.buffer = r.buffer := by
  unfold takeNacks
  split <;> rfl

@[simp] theorem takeNacks_extender (r : Receiver) : r.takeNacks.2.extender = r.extender := by
  unfold takeNacks
  split <;> rfl

@[simp] theorem report_buffer (r : Receiver) : r.report.2.buffer = r.buffer := by
  unfold report
  split <;> rfl

@[simp] theorem report_started (r : Receiver) :
    r.report.2.extender.started = r.extender.started := by
  unfold report
  split <;> rfl

/-! ## Reachable receivers -/

/-- The receivers that come about by calls: any datagrams, drains at any times to any outputs, and
feedback taken at any moment. -/
inductive Reachable (grace : Int) (senderSsrc : UInt32) : Receiver → Prop
  | new : Reachable grace senderSsrc (.new grace senderSsrc)
  | accept {r : Receiver} (h : Reachable grace senderSsrc r) (datagram : List UInt8) :
      Reachable grace senderSsrc (r.accept datagram).2
  | drain {r : Receiver} (h : Reachable grace senderSsrc r) {ω ε : Type} (write : ByteSink ω ε)
      (now : Int) (out : ω) : Reachable grace senderSsrc (r.drain write now out 0).2.1
  | takeNacks {r : Receiver} (h : Reachable grace senderSsrc r) :
      Reachable grace senderSsrc r.takeNacks.2
  | report {r : Receiver} (h : Reachable grace senderSsrc r) :
      Reachable grace senderSsrc r.report.2

/-! ## The run of a receiver's buffer -/

section FollowsRun

open ReorderBuffer (run run_concat InOrder)

/-- A buffer has taken the calls of a run, and no unit before its extender has heard of a packet. -/
def FollowsRun (grace : Int) (b : ReorderBuffer) (x : Extender) : Prop :=
  ∃ calls, (run grace calls).buffer = b ∧ (x.started = false → (run grace calls).accepted = [])

namespace FollowsRun

variable {grace : Int} {b : ReorderBuffer} {x : Extender}

/-- A turn of the buffer is a call of its run. -/
theorem turn (h : FollowsRun grace b x) (now : Int) : FollowsRun grace (b.next now).2 x := by
  obtain ⟨calls, rfl, hquiet⟩ := h
  refine ⟨calls ++ [.next now], ?_, ?_⟩ <;> rw [run_concat]
  · rfl
  · exact hquiet

/-- So is a unit that is put in, and the extender has heard of its packet. -/
theorem insert (h : FollowsRun grace b x) (u : MediaUnit) (wire : UInt16) :
    FollowsRun grace (b.insert u).2 (x.extend wire).2 := by
  obtain ⟨calls, rfl, -⟩ := h
  refine ⟨calls ++ [.insert u], ?_, fun hnot => ?_⟩
  · rw [run_concat]
    exact ReorderBuffer.Run.offer_buffer _ u
  · rw [Extender.started_extend] at hnot
    cases hnot

/-- A packet that brings no unit is known to the extender alone. -/
theorem extend (h : FollowsRun grace b x) (wire : UInt16) :
    FollowsRun grace b (x.extend wire).2 := by
  obtain ⟨calls, rfl, -⟩ := h
  refine ⟨calls, rfl, fun hnot => ?_⟩
  rw [Extender.started_extend] at hnot
  cases hnot

theorem accept {r : Receiver} (h : FollowsRun grace r.buffer r.extender) (datagram : List UInt8) :
    FollowsRun grace (r.accept datagram).2.buffer (r.accept datagram).2.extender := by
  -- only a datagram of the stream reaches extender and buffer
  rcases r.accept_cases datagram with ⟨p, -, haccept⟩ | ⟨hb, hx⟩
  · rw [haccept]
    cases hn : (r.extender.extend p.sequence).1 with
    | none =>
      rw [acceptPacket_of_none (r := r.locked datagram p.ssrc) hn]
      exact h.extend p.sequence
    | some n =>
      rw [acceptPacket_of_some (r := r.locked datagram p.ssrc) hn]
      exact h.insert (p.toUnit n 0) p.sequence
  · rw [hb, hx]
    exact h

/-- A drain is a row of turns. -/
theorem drain {r : Receiver} {ω ε : Type} (h : FollowsRun grace r.buffer r.extender)
    (write : ByteSink ω ε) (now : Int) (out : ω) (count : Nat) :
    FollowsRun grace (r.drain write now out count).2.1.buffer
      (r.drain write now out count).2.1.extender :=
  drain_ends write now (P := fun r' _ => FollowsRun grace r'.buffer r'.extender)
    (Q := fun r' _ => FollowsRun grace r'.buffer r'.extender)
    (fun _ _ h _ => h.turn now) (fun _ _ _ _ _ h _ _ => h.turn now)
    (fun _ _ _ _ h _ _ => h.turn now) h count

theorem takeNacks {r : Receiver} (h : FollowsRun grace r.buffer r.extender) :
    FollowsRun grace r.takeNacks.2.buffer r.takeNacks.2.extender := by
  rw [takeNacks_buffer, takeNacks_extender]
  exact h

theorem report {r : Receiver} (h : FollowsRun grace r.buffer r.extender) :
    FollowsRun grace r.report.2.buffer r.report.2.extender := by
  obtain ⟨calls, hbuffer, hquiet⟩ := h
  refine ⟨calls, hbuffer.trans (report_buffer r).symm, fun hnot => hquiet ?_⟩
  rw [report_started] at hnot
  exact hnot

end FollowsRun

namespace Reachable

variable {grace : Int} {senderSsrc : UInt32} {r : Receiver} (h : Reachable grace senderSsrc r)
include h

/-- The buffer of a receiver that comes about by calls has been through a run. -/
theorem followsRun : FollowsRun grace r.buffer r.extender := by
  induction h with
  | new => exact ⟨[], rfl, fun _ => rfl⟩
  | accept _ datagram ih => exact ih.accept datagram
  | drain _ write now out ih => exact ih.drain write now out 0
  | takeNacks _ ih => exact ih.takeNacks
  | report _ ih => exact ih.report

/-- Where a unit has been delivered, the extender has heard of a packet. -/
theorem started {last : SeqNumber} (hl : r.buffer.lastDelivered = some last) :
    r.extender.started = true := by
  obtain ⟨calls, hbuffer, hquiet⟩ := h.followsRun
  have hrun : InOrder (run grace calls) := .run grace calls
  by_contra hnot
  have hnone : (run grace calls).accepted = [] := hquiet (by simpa using hnot)
  -- nothing was accepted, so nothing can have been delivered
  have hdelivered : (run grace calls).delivered = [] :=
    List.eq_nil_iff_forall_not_mem.mpr fun u hu => by
      have := hrun.delivered_accepted u hu
      rw [hnone] at this
      cases this
  have hreached := hrun.reached
  rw [hdelivered, hbuffer, hl] at hreached
  cases hreached

end Reachable

end FollowsRun

end Receiver

end Playout
