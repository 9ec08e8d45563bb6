import Mathlib.Data.List.Forall2
import Playout.Proofs.Receiver.Accounts
import Playout.Proofs.Reorder.Requests

/-!
# Requests on their way to the sender

What the buffer asks for waits in a queue of the receiver until it is taken in the form of packets.
A `Dialogue` is a receiver beside the run that its buffer has been through and the packets that were
taken from it. At any moment the queue holds the newest requests of that run, and the packets ask
for all the others:

    c.buffered.requests = handed ++ c.receiver.queued

with one packet for each number of `handed`. The queue is emptied whether or not the source of the
stream is known, and nothing is lost by it, because a buffer that was given no unit has nothing to
ask for (`Unheard`).
-/

namespace Playout

/-- The number that an event asks for. -/
def LossEvent.request? : LossEvent → Option SeqNumber
  | .request n => some n
  | .lost _ _ => none

/-- A packet of `sender` that asks the source `media` for the number `n`, and for no other. -/
structure Nack.AsksFor (nack : Nack) (sender : UInt32) (media : Option UInt32) (n : SeqNumber) :
    Prop where
  sender : nack.senderSsrc = sender
  media : media = some nack.mediaSsrc
  pid : nack.pid.toNat = n.raw.toNat % 65536
  blp : nack.blp = 0
  lost : nack.lostSequences = [nack.pid]

/-- A packet for one number asks for that one. -/
theorem Nack.single_asksFor (sender media : UInt32) (n : SeqNumber) :
    (Nack.single sender media n.wire).AsksFor sender (some media) n where
  sender := rfl
  media := rfl
  pid := n.toNat_wire
  blp := rfl
  lost := by
    have hnone : (List.range 16).filter (0 : UInt16).toNat.testBit = [] := by decide
    show n.wire :: ((List.range 16).filter (0 : UInt16).toNat.testBit).map _ = [n.wire]
    rw [hnone]
    rfl

/-- Where no source is known, no packet can name it. -/
theorem Nack.asked_of_unheard {sender : UInt32} {sent : List Nack} {handed : List SeqNumber}
    (h : List.Forall₂ (fun nack n => nack.AsksFor sender none n) sent handed) :
    sent = [] ∧ handed = [] := by
  cases h with
  | nil => exact ⟨rfl, rfl⟩
  | cons hfirst _ => exact absurd hfirst.media nofun

namespace ReorderBuffer

variable {ω ε : Type}

/-- The run that goes on with the turns of a drain: as long as a turn brings a unit that can be
written. -/
def Run.drain (write : ByteSink ω ε) (run : Run) (now : Int) (out : ω) : Run :=
  match _h : run.buffer.next now with
  | (⟨none, _⟩, _) => run.turn now
  | (⟨some d, _⟩, _) =>
    match write d.unit.payload out with
    | (.error _, _) => run.turn now
    | (.ok (), out) => drain write (run.turn now) now out
termination_by run.buffer.pending.length
decreasing_by
  simp only [Run.turn, _h]
  exact pending_next_length_lt _h

section Drain

variable (write : ByteSink ω ε) {run : Run} {now : Int} {out out' : ω} {d : Delivery}

/-- A drain whose first turn brings nothing. -/
theorem Run.drain_of_none (h : (run.buffer.next now).1.delivery = none) :
    run.drain write now out = run.turn now := by
  rw [drain]
  split
  · rfl
  · next heq =>
    rw [heq] at h
    cases h

/-- A drain whose first write fails. -/
theorem Run.drain_of_error {e : ε} (h : (run.buffer.next now).1.delivery = some d)
    (hw : write d.unit.payload out = (.error e, out')) :
    run.drain write now out = run.turn now := by
  rw [drain]
  split
  · rfl
  · next heq =>
    rw [heq] at h
    cases h
    rw [hw]

/-- A drain that goes on. -/
theorem Run.drain_of_ok (h : (run.buffer.next now).1.delivery = some d)
    (hw : write d.unit.payload out = (.ok (), out')) :
    run.drain write now out = (run.turn now).drain write now out' := by
  rw [drain]
  split
  · next heq =>
    rw [heq] at h
    cases h
  · next heq =>
    rw [heq] at h
    cases h
    rw [hw]

end Drain

end ReorderBuffer

namespace Receiver

variable {ω ε : Type}

/-! ## The queue -/

/-- The numbers that were asked for and are still to be sent, the oldest first. -/
def queued (r : Receiver) : List SeqNumber := r.events.filterMap LossEvent.request?

/-- What a turn asks for joins the queue at its end. -/
theorem queued_turn (r : Receiver) (now : Int) :
    (r.turn now).queued = r.queued ++ (r.buffer.next now).1.request?.toList := by
  unfold queued turn ReorderBuffer.Turn.request?
  rw [List.filterMap_append]
  congr 1
  cases (r.buffer.next now).1.event with
  | none => rfl
  | some event => cases event <;> rfl

/-- The packets taken ask for what was in the queue. -/
theorem takeNacks_asksFor (r : Receiver) (h : r.mediaSsrc = none → r.events = []) :
    List.Forall₂ (fun nack n => nack.AsksFor r.senderSsrc r.mediaSsrc n)
      r.takeNacks.1 r.queued := by
  unfold takeNacks queued
  cases hmedia : r.mediaSsrc with
  | none => -- without a source there is nothing to ask for
    rw [h hmedia]
    exact .nil
  | some media =>
    dsimp only
    generalize r.events = events
    induction events with
    | nil => exact .nil
    | cons event events ih =>
      -- a loss is not asked for, so its event is passed over
      cases event with
      | request n => exact .cons (Nack.single_asksFor r.senderSsrc media n) ih
      | lost first last => exact ih

/-- The unit that a datagram brings, if it carries a packet of the stream whose number is found. -/
def unitOf? (r : Receiver) (datagram : List UInt8) : Option MediaUnit :=
  match RtpPacket.parse datagram with
  | .ok p =>
    if r.mediaSsrc.getD p.ssrc = p.ssrc then (r.extender.extend p.sequence).1.map (p.toUnit · 0)
    else none
  | .error _ => none

/-! ## The queue and the run of the buffer -/

/-- The buffer of a receiver has been through a run, and the queue holds the newest requests of it:
all but those handed out for sending. -/
structure Follows (grace : Int) (r : Receiver) (run : ReorderBuffer.Run)
    (handed : List SeqNumber) : Prop where
  genuine : ∃ calls, run = ReorderBuffer.run grace calls
  buffer : run.buffer = r.buffer
  requests : run.requests = handed ++ r.queued

namespace Follows

variable {grace : Int} {r : Receiver} {run : ReorderBuffer.Run} {handed : List SeqNumber}

/-- A new receiver follows the empty run. -/
theorem new (grace : Int) (senderSsrc : UInt32) :
    Follows grace (.new grace senderSsrc) (ReorderBuffer.run grace []) [] :=
  ⟨⟨[], rfl⟩, rfl, rfl⟩

/-- What the buffer asks for in a turn joins the queue. -/
theorem turn (h : Follows grace r run handed) (now : Int) :
    Follows grace (r.turn now) (run.turn now) handed where
  genuine := by
    obtain ⟨calls, rfl⟩ := h.genuine
    exact ⟨_, (ReorderBuffer.run_concat grace calls (.next now)).symm⟩
  buffer := congrArg (fun b => (b.next now).2) h.buffer
  requests := by
    show (run.goOn (run.buffer.next now).2 (run.buffer.next now).1).requests = _
    rw [ReorderBuffer.Run.requests_goOn, queued_turn, h.requests, h.buffer, List.append_assoc]

/-- A drain takes the turns of its run, one by one. -/
theorem drain {ω ε : Type} (h : Follows grace r run handed) (write : ByteSink ω ε) (now : Int)
    (out : ω) (count : Nat) :
    Follows grace (r.drain write now out count).2.1 (run.drain write now out) handed := by
  -- in front of every turn, the rest of the drain is that of a run which the receiver follows
  refine drain_ends write now
    (P := fun r' out' => ∃ run', Follows grace r' run' handed ∧
      run'.drain write now out' = run.drain write now out)
    (Q := fun r' _ => Follows grace r' (run.drain write now out) handed)
    ?_ ?_ ?_ ⟨run, h, rfl⟩ count
  · rintro r' out' ⟨run', hr', heq⟩ hd
    rw [← heq, ReorderBuffer.Run.drain_of_none write (hr'.buffer ▸ hd)]
    exact hr'.turn now
  · rintro r' out' d e out'' ⟨run', hr', heq⟩ hd hw
    rw [← heq, ReorderBuffer.Run.drain_of_error write (hr'.buffer ▸ hd) hw]
    exact hr'.turn now
  · rintro r' out' d out'' ⟨run', hr', heq⟩ hd hw
    refine ⟨run'.turn now, ?_, ?_⟩
    · exact ⟨(hr'.turn now).genuine, (hr'.turn now).buffer, (hr'.turn now).requests⟩
    · rw [← heq, ReorderBuffer.Run.drain_of_ok write (hr'.buffer ▸ hd) hw]

/-- A unit that is put in is put into the run of the buffer too. -/
theorem offer (h : Follows grace r run handed) {r' : Receiver} (u : MediaUnit)
    (hbuffer : r'.buffer = (r.buffer.insert u).2) (hevents : r'.events = r.events) :
    Follows grace r' (run.offer u) handed where
  genuine := by
    obtain ⟨calls, rfl⟩ := h.genuine
    exact ⟨_, (ReorderBuffer.run_concat grace calls (.insert u)).symm⟩
  buffer := by
    rw [ReorderBuffer.Run.offer_buffer, h.buffer, hbuffer]
  requests := by
    rw [ReorderBuffer.Run.requests_offer, h.requests, queued, queued, hevents]

/-- Only the buffer and the queue matter. -/
theorem congr (h : Follows grace r run handed) {r' : Receiver} (hbuffer : r'.buffer = r.buffer)
    (hevents : r'.events = r.events) : Follows grace r' run handed where
  genuine := h.genuine
  buffer := h.buffer.trans hbuffer.symm
  requests := by
    rw [h.requests, queued, queued, hevents]

/-- A datagram that brings a unit offers it to the run. -/
theorem accept (h : Follows grace r run handed) (datagram : List UInt8) :
    Follows grace (r.accept datagram).2 ((r.unitOf? datagram).elim run run.offer) handed := by
  cases hparse : RtpPacket.parse datagram with
  | error e => -- a datagram that brings no unit does not reach the buffer
    unfold Receiver.accept unitOf?
    rw [hparse]
    exact h.congr rfl rfl
  | ok p =>
    by_cases hssrc : r.mediaSsrc.getD p.ssrc = p.ssrc
    -- a packet of the stream brings a unit if its number is found
    · have hunit : r.unitOf? datagram = (r.extender.extend p.sequence).1.map (p.toUnit · 0) := by
        unfold unitOf?
        rw [hparse]
        exact if_pos hssrc
      rw [accept_packet hparse hssrc, hunit]
      cases hn : (r.extender.extend p.sequence).1 with
      | none =>
        rw [acceptPacket_of_none (r := r.locked datagram p.ssrc) hn]
        exact h.congr rfl rfl
      | some n =>
        rw [acceptPacket_of_some (r := r.locked datagram p.ssrc) hn]
        exact h.offer (p.toUnit n 0) rfl rfl
    · have hunit : r.unitOf? datagram = none := by
        unfold unitOf?
        rw [hparse]
        exact if_neg hssrc
      rw [accept_foreign hparse hssrc, hunit]
      exact h.congr rfl rfl

/-- The queue is handed out whole. -/
theorem takeNacks (h : Follows grace r run handed) :
    Follows grace r.takeNacks.2 run (handed ++ r.queued) where
  genuine := h.genuine
  buffer := h.buffer.trans (takeNacks_buffer r).symm
  requests := by
    have hempty : r.takeNacks.2.queued = [] := by
      unfold queued Receiver.takeNacks
      split <;> rfl
    rw [hempty, List.append_nil]
    exact h.requests

/-- A report is nothing to the buffer. -/
theorem report (h : Follows grace r run handed) : Follows grace r.report.2 run handed := by
  refine h.congr (report_buffer r) ?_
  unfold Receiver.report
  split <;> rfl

end Follows

/-! ## Before the stream is known -/

/-- As long as no source is heard, nothing waits, and nothing was asked for. -/
def Unheard (r : Receiver) : Prop :=
  r.mediaSsrc = none → r.buffer.pending = [] ∧ r.events = []

namespace Unheard

variable {r : Receiver}

theorem accept (h : r.Unheard) (datagram : List UInt8) : (r.accept datagram).2.Unheard := by
  apply accept_ends (Q := Unheard)
  · exact fun _ _ => h
  · intro p _ _ hnone
    rw [(acceptPacket_frame _ p).2] at hnone
    cases hnone
  · exact fun _ _ _ => h

/-- A turn of a buffer without units asks for nothing. -/
theorem turn (h : r.Unheard) (now : Int) : (r.turn now).Unheard := by
  intro hnone
  obtain ⟨hpending, hevents⟩ := h hnone
  have hp : r.buffer.dropStale.pending = [] := by
    have hle := r.buffer.pending_dropStale_length_le
    rw [hpending] at hle
    exact List.length_eq_zero_iff.mp (Nat.le_zero.mp hle)
  have hnext : r.buffer.next now = ({}, r.buffer.dropStale.idle now) := by
    simp only [ReorderBuffer.next, hp]
  unfold Receiver.turn
  rw [hnext]
  exact ⟨hp, by rw [hevents]; rfl⟩

theorem drain {ω ε : Type} (h : r.Unheard) (write : ByteSink ω ε) (now : Int) (out : ω)
    (count : Nat) : (r.drain write now out count).2.1.Unheard :=
  drain_ends write now (P := fun r' _ => r'.Unheard) (Q := fun r' _ => r'.Unheard)
    (fun _ _ h _ => h.turn now) (fun _ _ _ _ _ h _ _ => h.turn now)
    (fun _ _ _ _ h _ _ => h.turn now) h count

theorem takeNacks (h : r.Unheard) : r.takeNacks.2.Unheard := by
  unfold Receiver.takeNacks
  split
  · exact fun hnone => ⟨(h hnone).1, rfl⟩
  · next media hmedia =>
    intro hnone
    exact absurd (hmedia.symm.trans hnone) nofun

theorem report (h : r.Unheard) : r.report.2.Unheard := by
  unfold Receiver.report
  split
  · exact h
  · exact h

end Unheard

/-! ## Runs -/

/-- The receiver has sent no more packets, and if it knew the source of the stream, it
still does. -/
structure Mute (r r' : Receiver) : Prop where
  sender : r'.senderSsrc = r.senderSsrc
  nacksSent : r'.nacksSent = r.nacksSent
  media : r.mediaSsrc = none ∨ r'.mediaSsrc = r.mediaSsrc

/-- A datagram sends nothing, and leaves the source as it is, once that is known. -/
theorem accept_mute (r : Receiver) (datagram : List UInt8) : r.Mute (r.accept datagram).2 := by
  -- a source that is known is not given up
  have hmedia : r.mediaSsrc = none ∨ (r.accept datagram).2.mediaSsrc = r.mediaSsrc := by
    rw [accept_mediaSsrc]
    cases r.mediaSsrc with
    | none => exact .inl rfl
    | some ssrc => exact .inr rfl
  have hkept : (r.accept datagram).2.senderSsrc = r.senderSsrc ∧
      (r.accept datagram).2.nacksSent = r.nacksSent := by
    apply accept_ends (Q := fun r' => r'.senderSsrc = r.senderSsrc ∧ r'.nacksSent = r.nacksSent)
    · exact fun _ _ => ⟨rfl, rfl⟩
    · intro p _ _
      unfold acceptPacket
      split <;> exact ⟨rfl, rfl⟩
    · exact fun _ _ _ => ⟨rfl, rfl⟩
  exact ⟨hkept.1, hkept.2, hmedia⟩

/-- A drain sends nothing. -/
theorem drain_mute {ω ε : Type} (r : Receiver) (write : ByteSink ω ε) (now : Int) (out : ω)
    (count : Nat) : r.Mute (r.drain write now out count).2.1 :=
  drain_ends write now (P := fun r' _ => r.Mute r') (Q := fun r' _ => r.Mute r')
    (fun _ _ h _ => ⟨h.sender, h.nacksSent, h.media⟩)
    (fun _ _ _ _ _ h _ _ => ⟨h.sender, h.nacksSent, h.media⟩)
    (fun _ _ _ _ h _ _ => ⟨h.sender, h.nacksSent, h.media⟩) ⟨rfl, rfl, .inr rfl⟩ count

/-- A report of what was received is no request. -/
theorem report_mute (r : Receiver) : r.Mute r.report.2 := by
  unfold Receiver.report
  split <;> exact ⟨rfl, rfl, .inr rfl⟩

/-- A receiver, its output and its feedback. -/
structure Dialogue (ω : Type) where
  receiver : Receiver
  out : ω
  /-- What the buffer of the receiver has been through -/
  buffered : ReorderBuffer.Run
  /-- The packets that were taken to be sent, the oldest first -/
  sent : List Nack := []

namespace Dialogue

variable {ω ε : Type} (write : ByteSink ω ε)

/-- Every call keeps queue and packets in step. -/
def perform (c : Dialogue ω) : Call → Dialogue ω
  | .datagram bytes =>
    { c with
      receiver := (c.receiver.accept bytes).2
      buffered := (c.receiver.unitOf? bytes).elim c.buffered c.buffered.offer }
  | .drain now =>
    let (_, receiver, out) := c.receiver.drain write now c.out 0
    { c with receiver, out, buffered := c.buffered.drain write now c.out }
  | .takeNacks =>
    { c with receiver := c.receiver.takeNacks.2, sent := c.sent ++ c.receiver.takeNacks.1 }
  | .report => { c with receiver := c.receiver.report.2 }

/-- Calls, one after the other, of a new receiver. -/
def run (grace : Int) (senderSsrc : UInt32) (out : ω) (calls : List Call) : Dialogue ω :=
  calls.foldl (perform write)
    { receiver := .new grace senderSsrc, out, buffered := ReorderBuffer.run grace [] }

/-- One more call. -/
theorem run_concat (grace : Int) (senderSsrc : UInt32) (out : ω) (calls : List Call) (c : Call) :
    run write grace senderSsrc out (calls ++ [c]) =
      (run write grace senderSsrc out calls).perform write c := by
  unfold run
  rw [List.foldl_append, List.foldl_cons, List.foldl_nil]

/-- The packets sent so far ask for the numbers handed out for sending, one for each of them. -/
structure Sound (grace : Int) (senderSsrc : UInt32) (c : Dialogue ω) (handed : List SeqNumber) :
    Prop where
  follows : Follows grace c.receiver c.buffered handed
  asked : List.Forall₂ (fun nack n => nack.AsksFor senderSsrc c.receiver.mediaSsrc n) c.sent handed
  sender : c.receiver.senderSsrc = senderSsrc
  nacksSent : c.receiver.nacksSent = c.sent.length
  unheard : c.receiver.Unheard

namespace Sound

variable {write} {grace : Int} {senderSsrc : UInt32} {c c' : Dialogue ω} {handed : List SeqNumber}

/-- A call that sends nothing. -/
theorem mute (h : c.Sound grace senderSsrc handed) (hsent : c'.sent = c.sent)
    (hmute : c.receiver.Mute c'.receiver) (hfollows : Follows grace c'.receiver c'.buffered handed)
    (hunheard : c'.receiver.Unheard) : c'.Sound grace senderSsrc handed where
  follows := hfollows
  asked := by
    have hasked := h.asked
    rw [hsent]
    rcases hmute.media with hnone | hsame
    -- without a source nothing can have been sent
    · rw [hnone] at hasked
      obtain ⟨hnil, rfl⟩ := Nack.asked_of_unheard hasked
      rw [hnil]
      exact .nil
    · rw [hsame]
      exact hasked
  sender := hmute.sender.trans h.sender
  nacksSent := by
    rw [hmute.nacksSent, hsent]
    exact h.nacksSent
  unheard := hunheard

theorem takeNacks (h : c.Sound grace senderSsrc handed) :
    Sound grace senderSsrc
      { c with receiver := c.receiver.takeNacks.2, sent := c.sent ++ c.receiver.takeNacks.1 }
      (handed ++ c.receiver.queued) := by
  -- the packets that are taken now ask for what was queued
  have htaken := takeNacks_asksFor c.receiver fun hnone => (h.unheard hnone).2
  have hmedia : c.receiver.takeNacks.2.mediaSsrc = c.receiver.mediaSsrc :=
    (takeNacks_intake c.receiver).2
  rw [h.sender] at htaken
  refine ⟨h.follows.takeNacks, ?_, ?_, ?_, h.unheard.takeNacks⟩
  · rw [hmedia]
    exact List.rel_append h.asked htaken
  · rw [← h.sender]
    unfold Receiver.takeNacks
    split <;> rfl
  · have hcount : c.receiver.takeNacks.2.nacksSent =
        c.receiver.nacksSent + c.receiver.takeNacks.1.length := by
      unfold Receiver.takeNacks
      split <;> rfl
    rw [hcount, h.nacksSent, List.length_append]

theorem perform (h : c.Sound grace senderSsrc handed) (call : Call) :
    ∃ handed', (c.perform write call).Sound grace senderSsrc handed' := by
  cases call with
  | datagram bytes =>
    exact ⟨handed, h.mute rfl (accept_mute c.receiver bytes) (h.follows.accept bytes)
      (h.unheard.accept bytes)⟩
  | drain now =>
    exact ⟨handed, h.mute rfl (drain_mute c.receiver write now c.out 0)
      (h.follows.drain write now c.out 0) (h.unheard.drain write now c.out 0)⟩
  | takeNacks => exact ⟨handed ++ c.receiver.queued, h.takeNacks⟩
  | report =>
    exact ⟨handed, h.mute rfl (report_mute c.receiver) h.follows.report h.unheard.report⟩

end Sound

/-- So they are in step after any calls, by induction on the last one. -/
theorem run_sound (grace : Int) (senderSsrc : UInt32) (out : ω) (calls : List Call) :
    ∃ handed, (run write grace senderSsrc out calls).Sound grace senderSsrc handed := by
  induction calls using List.reverseRecOn with
  | nil =>
    exact ⟨[], .new grace senderSsrc, .nil, rfl, rfl, fun _ => ⟨rfl, rfl⟩⟩
  | append_singleton calls call ih =>
    obtain ⟨handed, h⟩ := ih
    rw [run_concat]
    exact h.perform call

end Dialogue

/-- **Every request is sent once.** After any run of calls of a receiver, with any bytes, at any
times and with any output: the buffer has been through a run of its own, and the requests of that
run, whose numbers increase, are those that packets were taken for, then those that wait in the
queue. There is one packet for each number taken, in their order: it comes from the receiver, is
meant for the source of the stream, and asks for the low 16 bits of that number and nothing else.
The counters say how many requests and how many packets there were. As long as the source is not
known, the queue is empty, so that nothing is dropped for want of it. -/
theorem run_sends_requests_once {ω ε : Type} (write : ByteSink ω ε) (out : ω) (grace : Int)
    (senderSsrc : UInt32) (calls : List Call) :
    let c := Dialogue.run write grace senderSsrc out calls
    let r := c.receiver
    (∃ bufferCalls, c.buffered = ReorderBuffer.run grace bufferCalls) ∧
      c.buffered.buffer = r.buffer ∧
      (∃ handed, c.buffered.requests = handed ++ r.queued ∧
        List.Forall₂ (fun nack n => nack.AsksFor senderSsrc r.mediaSsrc n) c.sent handed) ∧
      c.buffered.requests.Pairwise (· < ·) ∧
      c.buffered.requests.length = r.buffer.counts.requests ∧
      c.sent.length + r.queued.length = r.buffer.counts.requests ∧
      r.nacksSent = c.sent.length ∧
      (r.mediaSsrc = none → r.events = []) := by
  intro c r
  obtain ⟨handed, h⟩ : ∃ handed, c.Sound grace senderSsrc handed :=
    Dialogue.run_sound write grace senderSsrc out calls
  obtain ⟨bufferCalls, hrun⟩ := h.follows.genuine
  -- the requests of a run increase, and are counted
  have hsettling : c.buffered.Settling := hrun ▸ .run grace bufferCalls
  have hcounted : r.buffer.counts.requests = c.buffered.requests.length :=
    h.follows.buffer ▸ hsettling.balanced.counted
  refine ⟨⟨bufferCalls, hrun⟩, h.follows.buffer, ⟨handed, h.follows.requests, h.asked⟩,
    hsettling.asked.increasing, hcounted.symm, ?_, h.nacksSent, fun hnone => (h.unheard hnone).2⟩
  rw [hcounted, h.follows.requests, List.length_append, h.asked.length_eq]

end Receiver

end Playout
