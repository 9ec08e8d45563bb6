import Playout.Platform.Simulated
import Playout.Proofs.Audio.Stream

/-!
# A pacer in front of a ring that takes whole frames

The pacer knows how much the ring has room for, because both count the same frames, and the ring
takes all whole frames that it is offered. So the bytes in the ring, then those that wait, are those
that came (`KeepsUp`):

    KeepsUp.offer      an offer moves bytes from the front buffer into the ring
    KeepsUp.enqueue    the bytes of an output wait behind the others
    push_carries       what offers and returns keep, a push keeps
-/

namespace Playout.Pacer

open Playout.Action

variable {α : Type} {device : AudioDevice α} {give : Nat → Action α Unit}

/-! ## A push, one offer and one return after the other -/

section Carried

variable {J : Pacer → α → Prop} {p : Pacer} {a : α}

/-- An offer moves the front buffer on. -/
def OffersCarry (device : AudioDevice α) (J : Pacer → α → Prop) : Prop :=
  ∀ p a front others, J p a → p.queue = front :: others →
    (offer device front.rest).Ends (p, a)
      (fun n r => J (r.1.takeFront n (device.frameSize r.2) front others) r.2) fun _ _ => False

/-- A buffer of which nothing is left goes back. -/
def ReturnsCarry (give : Nat → Action α Unit) (J : Pacer → α → Prop) : Prop :=
  ∀ p a front others, J p a → p.queue = front :: others → front.rest = [] →
    (give front.slot).Ends a (fun _ a => J { p with queue := others } a) fun _ _ => False

/-- The loop of a push, by induction on its fuel. -/
theorem write_carries (hoffer : OffersCarry device J) (hreturn : ReturnsCarry give J) (n : Nat)
    (h : J p a) :
    (write device give n).Ends (p, a) (fun _ r => J r.1 r.2) fun _ _ => False := by
  induction n generalizing p a with
  | zero => exact h
  | succ n ih =>
    simp only [write, ends_bind, ends_get]
    cases hqueue : p.queue with
    | nil => exact h
    | cons front others =>
      simp only [ends_bind]
      refine (hoffer p a front others h hqueue).imp ?_ fun _ _ he => he
      rintro taken ⟨p', a'⟩ hr
      simp only [ends_get, ends_update, ends_ite, ends_bind, ends_onSecond]
      split
      · exact hr
      · next hwhole => -- nothing is left of the front buffer, so its slot goes back
        have hempty : front.rest.drop taken = [] := List.drop_eq_nil_iff.mpr (by omega)
        exact (hreturn _ a' _ others hr rfl hempty).imp (fun _ _ hj => ih hj) fun _ _ he => he

/-- What offers and returns keep, a push keeps, for marking that a push is posted moves nothing. -/
theorem push_carries (hmarked : ∀ p a pending, J p a → J { p with pushPending := pending } a)
    (hoffer : OffersCarry device J) (hreturn : ReturnsCarry give J) (h : J p a) :
    (push device give).Ends (p, a) (fun _ r => J r.1 r.2) fun _ _ => False := by
  simp only [push, schedule, ends_bind, ends_update, ends_get, ends_ite, ends_pure]
  refine (write_carries hoffer hreturn _ (hmarked p a false h)).imp (fun _ r hr => ?_)
    fun _ _ he => he
  split
  · exact hr
  · exact hmarked _ _ true hr

end Carried

/-! ## The bytes -/

/-- The pacer counts the frames of the ring, and what has come to it is in the ring, or waits. -/
structure KeepsUp (stream : List UInt8) (p : Pacer) (ring : AudioRing) : Prop where
  frames : p.framesWritten = ring.framesWritten
  whole : p.partialBytes = 0
  bytes : ring.written ++ p.waiting = stream

section KeepsUp

variable {stream : List UInt8} {p : Pacer} {ring : AudioRing} {front : QueuedAudio}
  {others : List QueuedAudio}

/-- Whether a push is posted says nothing about the bytes. -/
theorem KeepsUp.marked (h : p.KeepsUp stream ring) (pending : Bool) :
    { p with pushPending := pending }.KeepsUp stream ring :=
  ⟨h.frames, h.whole, h.bytes⟩

/-- The listener has no part in it. -/
theorem KeepsUp.play (h : p.KeepsUp stream ring) (frames : UInt32) :
    p.KeepsUp stream (ring.play frames) :=
  ⟨h.frames, h.whole, h.bytes⟩

/-- A buffer of which nothing is left leaves the queue. -/
theorem KeepsUp.pop (h : p.KeepsUp stream ring) (hqueue : p.queue = front :: others)
    (hrest : front.rest = []) : { p with queue := others }.KeepsUp stream ring := by
  have hbytes := h.bytes
  exact ⟨h.frames, h.whole, by simpa [waiting, hqueue, hrest] using hbytes⟩

/-- Whole frames of the front buffer go into the ring. -/
theorem KeepsUp.take {ring' : AudioRing} (h : p.KeepsUp stream ring)
    (hqueue : p.queue = front :: others) {frames : Nat}
    (hwritten : ring'.written =
      ring.written ++ front.rest.take (frames * AudioRing.frameSize))
    (hframes : ring'.framesWritten = ring.framesWritten + UInt32.ofNat frames) :
    (p.takeFront (frames * AudioRing.frameSize) AudioRing.frameSize front others).KeepsUp stream
      ring' := by
  -- whole frames leave no part of one behind
  have hcounted : frames * AudioRing.frameSize / max AudioRing.frameSize 1 = frames :=
    Nat.mul_div_cancel frames (by decide)
  have hbytes := h.bytes
  rw [waiting, hqueue, List.flatMap_cons] at hbytes
  refine ⟨?_, ?_, ?_⟩
  · show p.framesWritten + UInt32.ofNat
      ((p.partialBytes + frames * AudioRing.frameSize) / max AudioRing.frameSize 1) = _
    rw [h.whole, Nat.zero_add, hcounted, h.frames, hframes]
  · show (p.partialBytes + frames * AudioRing.frameSize) % max AudioRing.frameSize 1 = 0
    rw [h.whole, Nat.zero_add]
    exact Nat.mul_mod_left frames _
  · rw [hwritten, waiting, takeFront, List.flatMap_cons, List.append_assoc,
      ← List.append_assoc (front.rest.take _), List.take_append_drop]
    exact hbytes

/-- What a ring takes of the bytes that it seems to have room for. -/
theorem write_whole (size : Nat) (rest : List UInt8) (ring : AudioRing) :
    ∃ frames ring', ring.write size
        (rest.take ((size - ring.inFlight.toNat) * AudioRing.frameSize)) =
      (.ok (frames * AudioRing.frameSize), ring') ∧
      ring'.written = ring.written ++ rest.take (frames * AudioRing.frameSize) ∧
      ring'.framesWritten = ring.framesWritten + UInt32.ofNat frames := by
  refine ⟨_, _, rfl, ?_, rfl⟩
  dsimp only
  rw [List.take_take, Nat.min_eq_left]
  exact Nat.le_trans (Nat.div_mul_le_self _ _) (Nat.min_le_right _ _)

variable {devices : SimulatedDevices} {σ : Type} {a : σ} {w : World Simulation}

/-- An offer moves bytes from the front buffer into the ring. -/
theorem KeepsUp.offer (h : p.KeepsUp stream w.devices.ring)
    (hqueue : p.queue = front :: others) :
    (Pacer.offer (Simulation.platform devices).audioDevice.onSecond front.rest).Ends (p, a, w)
      (fun n r => ∃ ring, r.2 = (a, { w with devices := { w.devices with ring } }) ∧
        (r.1.takeFront n AudioRing.frameSize front others).KeepsUp stream ring)
      fun _ _ => False := by
  simp only [Pacer.offer, ends_bind, ends_get, ends_ite, ends_pure]
  split
  · refine ⟨w.devices.ring, rfl, ?_⟩
    have hnone : (p.takeFront (0 * AudioRing.frameSize) AudioRing.frameSize front others).KeepsUp
        stream w.devices.ring :=
      h.take hqueue (by simp) (by simp)
    simpa using hnone
  · simp only [ends_onSecond, ends_use]
    obtain ⟨frames, ring, hwrite, hwritten, hframes⟩ :=
      write_whole devices.frames front.rest w.devices.ring
    -- the room that the pacer counts is the room of the ring
    have hroom : p.headroom (Simulation.platform devices).audioDevice.onSecond (a, w) =
        (devices.frames - w.devices.ring.inFlight.toNat) * AudioRing.frameSize := by
      show (devices.frames - (p.framesWritten - w.devices.ring.played).toNat) * _ = _
      rw [h.frames]
      rfl
    have hcall : (Simulation.platform devices).audioDevice.onSecond.write
        (front.rest.take (p.headroom (Simulation.platform devices).audioDevice.onSecond (a, w)))
        (a, w) = (.ok (frames * AudioRing.frameSize),
          (a, { w with devices := { w.devices with ring } })) := by
      rw [hroom]
      simp only [AudioDevice.onSecond, Platform.audioDevice, World.use, Simulation.platform,
        Simulation.audioDevice, hwrite]
    rw [hcall]
    exact ⟨ring, rfl, h.take hqueue hwritten hframes⟩

/-- The bytes of an output wait behind the others. -/
theorem KeepsUp.enqueue (h : p.KeepsUp stream ring) {device : AudioDevice σ} (o : DecodedOutput) :
    (Pacer.enqueue device o).Ends (p, a) (fun _ r => r.2 = a ∧ r.1.slots = p.slots ++ [o.slot] ∧
      r.1.KeepsUp (stream ++ o.payload) ring) fun _ _ => False := by
  have hqueued : ({ p with queue := p.queue ++ [⟨o.slot, o.payload⟩] } : Pacer).KeepsUp
      (stream ++ o.payload) ring := by
    refine ⟨h.frames, h.whole, ?_⟩
    rw [← h.bytes]
    simp [waiting]
  simp only [Pacer.enqueue, schedule, ends_bind, ends_update, ends_get, ends_ite, ends_pure]
  split
  · exact ⟨trivial, by simp [slots], hqueued⟩
  · exact ⟨trivial, by simp [slots], hqueued.marked true⟩

end KeepsUp

end Playout.Pacer
