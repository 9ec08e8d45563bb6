import Mathlib.Algebra.Group.Nat.Defs
import Mathlib.Data.List.Induction
import Playout.Proofs.Audio.Pacer

/-!
# The stream through a pacer

An audio output on tape (`AudioDevice.taped`) remembers what it was offered and what it took, and
the way back to the decoder (`tapedRelease`) which slots went over it. Whatever the output answers,
each step of a push keeps the pacer in step with the tape:

    counted_writesKeep    the counters say how many bytes were taken, and how many frames that is
    inStep_writesKeep     the bytes taken, then those that wait, are those that came; a buffer goes
                          back when all bytes up to its end have been taken

`WritesKeep` says what such a step may do, so that a push is one induction for both.
-/

namespace Playout

/-- A call of an audio output, or of the decoder that takes a slot back. -/
inductive AudioCall (α : Type) where
  /-- Bytes are offered to an output in the state `a`. -/
  | write (a : α) (offered : List UInt8) (answer : Except String Nat)
  | release (slot : Nat)

namespace AudioCall

variable {α : Type}

/-- The bytes that the output takes. -/
def taken : AudioCall α → List UInt8
  | write _ offered (.ok n) => offered.take n
  | write _ _ (.error _) | release _ => []

/-- The slot that goes back. -/
def returned : AudioCall α → List Nat
  | release slot => [slot]
  | write .. => []

end AudioCall

variable {α : Type}

/-- All bytes that an output has taken. -/
def takenIn (calls : List (AudioCall α)) : List UInt8 := calls.flatMap (·.taken)

/-- All slots that have gone back. -/
def returnedIn (calls : List (AudioCall α)) : List Nat := calls.flatMap (·.returned)

@[simp] theorem takenIn_concat (calls : List (AudioCall α)) (c : AudioCall α) :
    takenIn (calls ++ [c]) = takenIn calls ++ c.taken := by
  simp [takenIn]

@[simp] theorem returnedIn_concat (calls : List (AudioCall α)) (c : AudioCall α) :
    returnedIn (calls ++ [c]) = returnedIn calls ++ c.returned := by
  simp [returnedIn]

/-- A state with a tape of the calls that led to it, in their order. -/
structure Taped (α : Type) where
  state : α
  calls : List (AudioCall α) := []

/-- The same output, on tape. -/
def AudioDevice.taped (device : AudioDevice α) : AudioDevice (Taped α) where
  frameCount t := device.frameCount t.state
  frameSize t := device.frameSize t.state
  sampleRate t := device.sampleRate t.state
  position t := device.position t.state
  write bytes t :=
    let (answer, a) := device.write bytes t.state
    (answer, ⟨a, t.calls ++ [.write t.state bytes answer]⟩)
  stop t := { t with state := device.stop t.state }

/-- The same way back, on tape. -/
def tapedRelease (release : Nat → Action α Unit) (slot : Nat) : Action (Taped α) Unit :=
  .focus Taped.state (fun a t => ⟨a, t.calls ++ [.release slot]⟩) (release slot)

/-- What can happen to a pacer, and to the devices outside of it. -/
inductive PacerEvent (α : Type) where
  | enqueue (o : DecodedOutput)
  | push
  | releaseAll
  /-- The devices move on by themselves: the output plays. -/
  | devices (change : α → α)

namespace PacerEvent

/-- The pacer and the tape after an event. -/
def perform (device : AudioDevice α) (release : Nat → Action α Unit) :
    PacerEvent α → Pacer × Taped α → Pacer × Taped α
  | enqueue o => (Pacer.enqueue device.taped o).stateAfter
  | push => (Pacer.push device.taped (tapedRelease release)).stateAfter
  | releaseAll => (Pacer.releaseAll (tapedRelease release)).stateAfter
  | devices change => fun (p, t) => (p, { t with state := change t.state })

/-- The output that comes with an event. -/
def output? : PacerEvent α → Option DecodedOutput
  | enqueue o => some o
  | _ => none

end PacerEvent

/-- All outputs that come to a pacer. -/
def outputsOf (events : List (PacerEvent α)) : List DecodedOutput := events.filterMap (·.output?)

/-- The bytes of some outputs, one after the other. -/
def streamOf (outputs : List DecodedOutput) : List UInt8 := outputs.flatMap (·.payload)

namespace Pacer

open Playout.Action

/-- A new pacer and its tape after some events. -/
def afterEvents (device : AudioDevice α) (release : Nat → Action α Unit) (a : α)
    (events : List (PacerEvent α)) : Pacer × Taped α :=
  events.foldl (fun st e => e.perform device release st) ({}, { state := a })

/-- Bytes that wait to be written. -/
def waiting (p : Pacer) : List UInt8 := p.queue.flatMap (·.rest)

variable {device : AudioDevice α} {release : Nat → Action α Unit} {p : Pacer} {t : Taped α}

/-- What holds of a new pacer and is kept by every event of a run holds after the run. -/
theorem afterEvents_induction {a : α} {I : List (PacerEvent α) → Pacer × Taped α → Prop}
    (hnew : I [] ({}, { state := a }))
    (hperform : ∀ events e st, I events st → I (events ++ [e]) (e.perform device release st))
    (events : List (PacerEvent α)) : I events (afterEvents device release a events) := by
  induction events using List.reverseRecOn with
  | nil => exact hnew
  | append_singleton events e ih =>
    unfold afterEvents at ih ⊢
    rw [List.foldl_append]
    exact hperform events e _ ih

/-! ## One step of a push -/

/-- The pacer after `n` bytes of the front buffer have been taken, in frames of `S` bytes. -/
def takeFront (p : Pacer) (n S : Nat) (front : QueuedAudio) (others : List QueuedAudio) : Pacer :=
  { p.account n S with queue := { front with rest := front.rest.drop n } :: others }

/-- `J` is kept by each step of a push: the output is not called, it takes some of the front
buffer, it fails, or a buffer of which nothing is left goes back. -/
structure WritesKeep (device : AudioDevice α) (J : Pacer → Taped α → Prop) : Prop where
  marked : ∀ p t pending, J p t → J { p with pushPending := pending } t
  idle : ∀ p t, J p t → J (p.account 0 (device.frameSize t.state)) t
  taken : ∀ p t front others n a, J p t → p.queue = front :: others →
    p.headroom device t.state ≠ 0 → front.rest ≠ [] →
    device.write (front.rest.take (p.headroom device t.state)) t.state = (.ok n, a) →
    J (p.takeFront n (device.frameSize a) front others)
      ⟨a, t.calls ++ [.write t.state (front.rest.take (p.headroom device t.state)) (.ok n)]⟩
  failed : ∀ p t front others reason a, J p t → p.queue = front :: others →
    p.headroom device t.state ≠ 0 → front.rest ≠ [] →
    device.write (front.rest.take (p.headroom device t.state)) t.state = (.error reason, a) →
    J p ⟨a, t.calls ++
      [.write t.state (front.rest.take (p.headroom device t.state)) (.error reason)]⟩
  returned : ∀ p t front others a, J p t → p.queue = front :: others → front.rest = [] →
    J { p with queue := others } ⟨a, t.calls ++ [.release front.slot]⟩

section WritesKeep

variable {J : Pacer → Taped α → Prop}

/-- Offering the front buffer is the first half of a step. -/
theorem WritesKeep.offer (h : WritesKeep device J) {front : QueuedAudio}
    {others : List QueuedAudio} (hqueue : p.queue = front :: others) (hJ : J p t) :
    (offer device.taped front.rest).Ends (p, t)
      (fun n r => J (r.1.takeFront n (device.frameSize r.2.state) front others) r.2)
      fun _ r => J r.1 r.2 := by
  simp only [Pacer.offer, ends_bind, ends_get, ends_ite, ends_pure]
  split
  · -- without a call the queue is what it was
    have hidle := h.idle p t hJ
    have hsame : p.takeFront 0 (device.frameSize t.state) front others =
        p.account 0 (device.frameSize t.state) := by
      simp [takeFront, account, hqueue]
    rw [hsame]
    exact hidle
  · next hcall => -- the output is called with what fits, and the tape keeps its answer
    obtain ⟨hroom, hrest⟩ := not_or.mp hcall
    simp only [ends_onSecond, ends_use]
    have hroom' : p.headroom device.taped t = p.headroom device t.state := rfl
    rw [hroom'] at hroom ⊢
    cases hanswer : device.write (front.rest.take (p.headroom device t.state)) t.state with
    | mk answer a =>
      have htaped : device.taped.write (front.rest.take (p.headroom device t.state)) t =
          (answer, ⟨a, t.calls ++
            [.write t.state (front.rest.take (p.headroom device t.state)) answer]⟩) := by
        simp [AudioDevice.taped, hanswer]
      rw [htaped]
      cases answer with
      | ok n => exact h.taken p t front others n a hJ hqueue hroom hrest hanswer
      | error reason => exact h.failed p t front others reason a hJ hqueue hroom hrest hanswer

/-- The loop of a push, by induction on its fuel. -/
theorem WritesKeep.write (h : WritesKeep device J) (release : Nat → Action α Unit) (n : Nat)
    (hJ : J p t) :
    (write device.taped (tapedRelease release) n).Ends (p, t) (fun _ r => J r.1 r.2)
      fun _ r => J r.1 r.2 := by
  induction n generalizing p t with
  | zero => exact hJ
  | succ n ih =>
    simp only [Pacer.write, ends_bind, ends_get]
    cases hqueue : p.queue with
    | nil => exact hJ
    | cons front others =>
      simp only [ends_bind]
      refine (h.offer hqueue hJ).imp (fun taken r hr => ?_) fun _ _ hr => hr
      obtain ⟨p', t'⟩ := r
      simp only [ends_get, ends_update, ends_ite, ends_bind, ends_onSecond]
      split
      · exact hr
      · next hwhole =>
        -- the buffer is written whole, and goes back
        have hempty : front.rest.drop taken = [] := List.drop_eq_nil_iff.mpr (by omega)
        have hreturned (a : α) := h.returned _ t' _ others a hr rfl hempty
        refine (ends_focus _ _ _).mpr (ends_of_forall (fun _ a => ?_) fun _ a => hreturned a)
        exact ih (hreturned a)

theorem WritesKeep.push (h : WritesKeep device J) (release : Nat → Action α Unit) (hJ : J p t) :
    (push device.taped (tapedRelease release)).Ends (p, t) (fun _ r => J r.1 r.2)
      fun _ r => J r.1 r.2 := by
  simp only [Pacer.push, schedule, ends_bind, ends_update, ends_get, ends_ite, ends_pure]
  refine (h.write release _ (h.marked p t false hJ)).imp (fun _ r hr => ?_) fun _ _ hr => hr
  split
  · exact hr
  · exact h.marked r.1 r.2 true hr

end WritesKeep

/-! ## The counters -/

/-- The counters say what has been taken, in frames of `S` bytes. -/
structure Counted (S : Nat) (p : Pacer) (t : Taped α) : Prop where
  bytes : p.bytesWritten = (takenIn t.calls).length
  frames : p.framesWritten = UInt32.ofNat ((takenIn t.calls).length / S)
  begun : p.partialBytes = (takenIn t.calls).length % S

section Counted

variable {S : Nat}

/-- Taking `n` more bytes is counted right. -/
theorem Counted.account (h : Counted S p t) (hS : 0 < S) (n : Nat) {a : α}
    {calls : List (AudioCall α)} (hcalls : (takenIn calls).length = (takenIn t.calls).length + n)
    (queue : List QueuedAudio) : Counted S { p.account n S with queue } ⟨a, calls⟩ := by
  have hmax : max S 1 = S := Nat.max_eq_left hS
  -- whole frames, and what is left of the bytes, add up
  have hwhole : (takenIn calls).length =
      S * ((takenIn t.calls).length / S) + ((takenIn t.calls).length % S + n) := by
    rw [hcalls, ← Nat.add_assoc, Nat.div_add_mod]
  refine ⟨?_, ?_, ?_⟩
  · rw [hcalls, ← h.bytes]
    rfl
  · show p.framesWritten + UInt32.ofNat ((p.partialBytes + n) / max S 1) = _
    rw [h.frames, h.begun, hmax, hwhole, Nat.mul_add_div hS, UInt32.ofNat_add]
  · show (p.partialBytes + n) % max S 1 = _
    rw [h.begun, hmax, hwhole, Nat.mul_add_mod]

/-- The counters stay in step with the tape. -/
theorem counted_writesKeep (hS : 0 < S) (hsize : ∀ a, device.frameSize a = S)
    (haccepts : ∀ bytes a n, (device.write bytes a).1 = .ok n → n ≤ bytes.length) :
    WritesKeep device (Counted S) where
  marked p t pending h := ⟨h.bytes, h.frames, h.begun⟩
  idle p t h := by
    rw [hsize]
    exact h.account hS 0 rfl p.queue
  taken p t front others n a h hqueue hroom hrest hanswer := by
    rw [hsize]
    refine h.account hS n ?_ _
    have hn := haccepts _ t.state n (congrArg Prod.fst hanswer)
    simp only [takenIn_concat, AudioCall.taken, List.length_append]
    rw [List.length_take, Nat.min_eq_left hn]
  -- a call that fails or gives a buffer back puts nothing on the tape
  failed p t front others reason a h hqueue hroom hrest hanswer := by
    refine ⟨?_, ?_, ?_⟩ <;> rw [takenIn_concat, AudioCall.taken, List.append_nil]
    · exact h.bytes
    · exact h.frames
    · exact h.begun
  returned p t front others a h hqueue hrest := by
    refine ⟨?_, ?_, ?_⟩ <;> rw [takenIn_concat, AudioCall.taken, List.append_nil]
    · exact h.bytes
    · exact h.frames
    · exact h.begun

end Counted

/-! ## The bytes -/

/-- The buffer of an output of which nothing has been written. -/
def whole (o : DecodedOutput) : QueuedAudio := ⟨o.slot, o.payload⟩

/-- A queue of outputs, of which `begun` has been taken of the first. -/
inductive Holding : List DecodedOutput → List QueuedAudio → List UInt8 → Prop
  | empty : Holding [] [] []
  | front {o : DecodedOutput} {begun rest : List UInt8} (left : List DecodedOutput)
      (payload : o.payload = begun ++ rest) :
      Holding (o :: left) (⟨o.slot, rest⟩ :: left.map whole) begun

theorem Holding.ofWhole (left : List DecodedOutput) : Holding left (left.map whole) [] := by
  cases left with
  | nil => exact .empty
  | cons o left => exact .front left rfl

/-- One more output waits behind the others. -/
theorem Holding.concat {left : List DecodedOutput} {queue : List QueuedAudio} {begun : List UInt8}
    (h : Holding left queue begun) (o : DecodedOutput) :
    Holding (left ++ [o]) (queue ++ [whole o]) begun := by
  cases h with
  | empty => exact .front [] rfl
  | front left payload =>
    have hfront := Holding.front (left ++ [o]) payload
    rwa [List.map_append] at hfront

/-- What has been taken of the first buffer and what waits are the whole stream. -/
theorem Holding.waiting_eq {left : List DecodedOutput} {begun : List UInt8}
    (h : Holding left p.queue begun) : begun ++ p.waiting = streamOf left := by
  have hwhole (left : List DecodedOutput) : (left.map whole).flatMap (·.rest) = streamOf left := by
    simp [streamOf, whole, List.flatMap_map]
  unfold waiting
  generalize p.queue = queue at h
  cases h with
  | empty => rfl
  | front left payload =>
    rw [List.flatMap_cons, hwhole, ← List.append_assoc, ← payload]
    rfl

theorem Holding.slots_eq {left : List DecodedOutput} {begun : List UInt8}
    (h : Holding left p.queue begun) : p.slots = left.map (·.slot) := by
  have hwhole (left : List DecodedOutput) : (left.map whole).map (·.slot) = left.map (·.slot) := by
    simp [whole]
  unfold slots
  generalize p.queue = queue at h
  cases h with
  | empty => rfl
  | front left payload => rw [List.map_cons, hwhole, List.map_cons]

/-- Behind the first buffer nothing has been written. -/
theorem Holding.behind {left : List DecodedOutput} {queue gone rest : List QueuedAudio}
    {begun : List UInt8} (h : Holding left queue begun) (hqueue : queue = gone ++ rest)
    (hgone : gone = [] → rest = []) :
    ∃ first last, left = first ++ last ∧ rest = last.map whole ∧
      first.map (·.slot) = gone.map (·.slot) := by
  cases h with
  | empty =>
    obtain ⟨rfl, rfl⟩ := List.append_eq_nil_iff.mp hqueue.symm
    exact ⟨[], [], rfl, rfl, rfl⟩
  -- the first buffer is begun, so it has to be among those that are gone
  | @front o _ _ left payload =>
    cases gone with
    | nil =>
      rw [hgone rfl] at hqueue
      exact absurd hqueue (List.cons_ne_nil _ _)
    | cons front gone =>
      obtain ⟨rfl, hbehind⟩ := List.cons.inj hqueue
      obtain ⟨first, last, rfl, rfl, rfl⟩ := List.map_eq_append_iff.mp hbehind
      refine ⟨o :: first, last, rfl, rfl, ?_⟩
      simp [whole]

/-- When `before` has been said, the buffer in hand has `rest` left to be written. -/
def InHand (outputs : List DecodedOutput) (before : List (AudioCall α)) (rest : List UInt8) :
    Prop :=
  ∃ done o left begun, outputs = done ++ o :: left ∧ returnedIn before = done.map (·.slot) ∧
    takenIn before = streamOf done ++ begun ∧ o.payload = begun ++ rest

/-- The calls have written the outputs up to where the queue begins. -/
def Written (outputs : List DecodedOutput) (queue : List QueuedAudio)
    (calls : List (AudioCall α)) : Prop :=
  ∃ done left begun, outputs = done ++ left ∧ Holding left queue begun ∧
    returnedIn calls = done.map (·.slot) ∧ takenIn calls = streamOf done ++ begun

section Written

variable {outputs : List DecodedOutput} {front : QueuedAudio} {queue others : List QueuedAudio}
  {calls : List (AudioCall α)} {a : α} {offered : List UInt8}

/-- What is written next is the rest of the front buffer. -/
theorem Written.inHand (h : Written outputs (front :: others) calls) :
    InHand outputs calls front.rest := by
  obtain ⟨done, left, begun, houtputs, hholding, hreturned, htaken⟩ := h
  cases hholding with
  | front left payload => exact ⟨done, _, left, begun, houtputs, hreturned, htaken, payload⟩

/-- Some of the front buffer is taken. -/
theorem Written.taken (h : Written outputs (front :: others) calls) {n : Nat}
    (hoffered : offered.take n = front.rest.take n) :
    Written outputs ({ front with rest := front.rest.drop n } :: others)
      (calls ++ [.write a offered (.ok n)]) := by
  obtain ⟨done, left, begun, houtputs, hholding, hreturned, htaken⟩ := h
  cases hholding with
  | @front o _ rest left payload =>
    refine ⟨done, o :: left, begun ++ rest.take n, houtputs, .front left ?_, ?_, ?_⟩
    · rw [List.append_assoc, List.take_append_drop, payload]
    · rw [returnedIn_concat, AudioCall.returned, List.append_nil, hreturned]
    · rw [takenIn_concat, AudioCall.taken, htaken, hoffered, List.append_assoc]

theorem Written.failed (h : Written outputs queue calls) (reason : String) :
    Written outputs queue (calls ++ [.write a offered (.error reason)]) := by
  obtain ⟨done, left, begun, houtputs, hholding, hreturned, htaken⟩ := h
  refine ⟨done, left, begun, houtputs, hholding, ?_, ?_⟩
  · rw [returnedIn_concat, AudioCall.returned, List.append_nil, hreturned]
  · rw [takenIn_concat, AudioCall.taken, List.append_nil, htaken]

/-- A buffer that is written to its end belongs to what is done. -/
theorem Written.ended (h : Written outputs (front :: others) calls) (hrest : front.rest = []) :
    ∃ done left, outputs = done ++ left ∧ others = left.map whole ∧
      returnedIn calls ++ [front.slot] = done.map (·.slot) ∧ takenIn calls = streamOf done := by
  obtain ⟨done, left, begun, houtputs, hholding, hreturned, htaken⟩ := h
  cases hholding with
  | @front o _ rest left payload =>
    -- nothing is left of the front buffer, so what was written of it is all of it
    obtain rfl : rest = [] := hrest
    rw [List.append_nil] at payload
    refine ⟨done ++ [o], left, by simpa using houtputs, rfl, ?_, ?_⟩
    · rw [hreturned, List.map_append]
      rfl
    · rw [htaken, ← payload]
      simp [streamOf]

/-- A buffer of which nothing is left is done. -/
theorem Written.returned (h : Written outputs (front :: others) calls) (hrest : front.rest = []) :
    Written outputs others (calls ++ [.release front.slot]) := by
  obtain ⟨done, left, houtputs, rfl, hreturned, htaken⟩ := h.ended hrest
  refine ⟨done, left, [], houtputs, .ofWhole left, ?_, ?_⟩
  · rw [returnedIn_concat]
    exact hreturned
  · rw [takenIn_concat, htaken]
    rfl

end Written

/-- The room that a ring in the state `a` seems to have when `before` has been said: whole frames
are counted, with 32 bits on both sides. -/
def roomAt (device : AudioDevice α) (S : Nat) (before : List (AudioCall α)) (a : α) : Nat :=
  (device.frameCount a -
    (UInt32.ofNat ((takenIn before).length / S) - device.position a).toNat) * S

theorem Counted.headroom_eq {S : Nat} (h : Counted S p t) (hsize : ∀ a, device.frameSize a = S) :
    p.headroom device t.state = roomAt device S t.calls t.state := by
  unfold Pacer.headroom inFlight roomAt
  rw [h.frames, hsize]

/-- The call may follow `before`: it writes what fits of the buffer in hand, or it returns the next
buffer, and everything up to its end has been taken. The calls in `earlier` are older, and about
other outputs. -/
def Due (device : AudioDevice α) (S : Nat) (earlier : List (AudioCall α))
    (outputs : List DecodedOutput) (before : List (AudioCall α)) : AudioCall α → Prop
  | .write a offered _ => roomAt device S (earlier ++ before) a ≠ 0 ∧ ∃ rest, rest ≠ [] ∧
      InHand outputs before rest ∧ offered = rest.take (roomAt device S (earlier ++ before) a)
  | .release slot => ∃ done left, outputs = done ++ left ∧
      returnedIn before ++ [slot] = done.map (·.slot) ∧ takenIn before = streamOf done

/-- Every call may follow those before it. -/
def EachDue (device : AudioDevice α) (S : Nat) (earlier : List (AudioCall α))
    (outputs : List DecodedOutput) (calls : List (AudioCall α)) : Prop :=
  ∀ before c after, calls = before ++ c :: after → Due device S earlier outputs before c

section Due

variable {S : Nat} {earlier calls : List (AudioCall α)} {outputs : List DecodedOutput}

/-- One more call that may follow. -/
theorem EachDue.concat (h : EachDue device S earlier outputs calls) {c : AudioCall α}
    (hc : Due device S earlier outputs calls c) :
    EachDue device S earlier outputs (calls ++ [c]) := by
  intro before c' after heq
  rcases List.eq_nil_or_concat after with rfl | ⟨after', last, rfl⟩
  · obtain ⟨rfl, hlast⟩ := List.append_inj' heq rfl
    obtain rfl : c = c' := by simpa using hlast
    exact hc
  · have hsplit : calls ++ [c] = (before ++ c' :: after') ++ [last] := by simpa using heq
    exact h before c' after' (List.append_inj' hsplit rfl).1

/-- More outputs that come do not change what was due. -/
theorem EachDue.later (h : EachDue device S earlier outputs calls) (o : DecodedOutput) :
    EachDue device S earlier (outputs ++ [o]) calls := by
  intro before c after heq
  have hc := h before c after heq
  cases c with
  | write a offered answer =>
    obtain ⟨hroom, rest, hrest, ⟨done, o', left, begun, houtputs, hhand⟩, hoffered⟩ := hc
    refine ⟨hroom, rest, hrest, ⟨done, o', left ++ [o], begun, ?_, hhand⟩, hoffered⟩
    rw [houtputs, List.append_assoc, List.cons_append]
  | release slot =>
    obtain ⟨done, left, houtputs, hdone⟩ := hc
    exact ⟨done, left ++ [o], by rw [houtputs, List.append_assoc], hdone⟩

end Due

/-- The calls since `earlier` have written the outputs in step with the queue. -/
structure InStep (device : AudioDevice α) (S : Nat) (earlier : List (AudioCall α))
    (outputs : List DecodedOutput) (p : Pacer) (t : Taped α) : Prop where
  counted : Counted S p t
  since : ∃ calls, t.calls = earlier ++ calls ∧ EachDue device S earlier outputs calls ∧
    Written outputs p.queue calls

section InStep

variable {S : Nat} {earlier : List (AudioCall α)} {outputs : List DecodedOutput}

/-- What is offered of the front buffer is due. -/
theorem Written.offer_due {front : QueuedAudio} {others : List QueuedAudio}
    {calls : List (AudioCall α)} (h : Written outputs (front :: others) calls)
    (hcounted : Counted S p t) (hsize : ∀ a, device.frameSize a = S)
    (hcalls : t.calls = earlier ++ calls) (hroom : p.headroom device t.state ≠ 0)
    (hrest : front.rest ≠ []) (answer : Except String Nat) :
    Due device S earlier outputs calls
      (.write t.state (front.rest.take (p.headroom device t.state)) answer) := by
  rw [hcounted.headroom_eq hsize, hcalls] at hroom ⊢
  exact ⟨hroom, front.rest, hrest, h.inHand, rfl⟩

/-- Every step of a push keeps the queue in step with the tape, and makes only calls that are
due. -/
theorem inStep_writesKeep (hS : 0 < S) (hsize : ∀ a, device.frameSize a = S)
    (haccepts : ∀ bytes a n, (device.write bytes a).1 = .ok n → n ≤ bytes.length)
    (earlier : List (AudioCall α)) (outputs : List DecodedOutput) :
    WritesKeep device (InStep device S earlier outputs) := by
  have hcounted := counted_writesKeep hS hsize haccepts
  refine ⟨?marked, ?idle, ?taken, ?failed, ?returned⟩
  case marked =>
    intro p t pending h
    exact ⟨hcounted.marked p t pending h.counted, h.since⟩
  case idle =>
    intro p t h
    exact ⟨hcounted.idle p t h.counted, h.since⟩
  case taken =>
    intro p t front others n a h hqueue hroom hrest hanswer
    obtain ⟨calls, hcalls, heach, hwritten⟩ := h.since
    rw [hqueue] at hwritten
    have hdue := hwritten.offer_due h.counted hsize hcalls hroom hrest (.ok n)
    refine ⟨hcounted.taken p t front others n a h.counted hqueue hroom hrest hanswer, _, ?_,
      heach.concat hdue, hwritten.taken ?_⟩
    · rw [hcalls, List.append_assoc]
    -- no more is taken than was offered, so what is taken is a first part of the buffer
    · have hn := haccepts _ t.state n (congrArg Prod.fst hanswer)
      rw [List.length_take] at hn
      rw [List.take_take, Nat.min_eq_left (Nat.le_trans hn (Nat.min_le_left _ _))]
  case failed =>
    intro p t front others reason a h hqueue hroom hrest hanswer
    obtain ⟨calls, hcalls, heach, hwritten⟩ := h.since
    rw [hqueue] at hwritten
    have hdue := hwritten.offer_due h.counted hsize hcalls hroom hrest (.error reason)
    refine ⟨hcounted.failed p t front others reason a h.counted hqueue hroom hrest hanswer, _, ?_,
      heach.concat hdue, ?_⟩
    · rw [hcalls, List.append_assoc]
    · rw [hqueue]
      exact hwritten.failed reason
  case returned =>
    intro p t front others a h hqueue hrest
    obtain ⟨calls, hcalls, heach, hwritten⟩ := h.since
    rw [hqueue] at hwritten
    obtain ⟨done, left, houtputs, -, hreturned, htaken⟩ := hwritten.ended hrest
    have hdue : Due device S earlier outputs calls (.release front.slot) :=
      ⟨done, left, houtputs, hreturned, htaken⟩
    refine ⟨hcounted.returned p t front others a h.counted hqueue hrest, _, ?_,
      heach.concat hdue, hwritten.returned hrest⟩
    rw [hcalls, List.append_assoc]

end InStep

end Pacer

end Playout
