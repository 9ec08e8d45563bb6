import Playout.Audio.Pacer
import Playout.Proofs.Action

/-!
# What a push does to the audio queue

`audioBacklog` counts the bytes that wait and the buffers that hold them. A push that does not
fail lowers it, or leaves the queue as it was; to a `Responsive` output it writes something, or
it asks for the next push at a later time.

The slots of the buffers that leave the queue are given away, those of the others are kept.

While something waits a push has been asked for, and one is asked for whenever the answer is a
wait, so that the requests can be counted.
-/

namespace Playout

/-- Bytes that wait to be written, and one for each buffer that waits to be returned. -/
def audioBacklog : List QueuedAudio → Nat
  | [] => 0
  | b :: queue => b.rest.length + 1 + audioBacklog queue

namespace Pacer

open Playout.Action

variable {α : Type}

@[simp] theorem ends_update {Q : Unit → Pacer × α → Prop} {E : Fault → Pacer × α → Prop}
    (f : Pacer → Pacer) (p : Pacer) (a : α) :
    (update f : Step α Unit).Ends (p, a) Q E ↔ Q () (f p, a) := Iff.rfl

/-- Offering bytes leaves the pacer as it is. -/
theorem offer_ends (device : AudioDevice α) (bytes : List UInt8) (p : Pacer) (a : α) :
    (offer device bytes).Ends (p, a) (fun _ t => t.1 = p) fun _ _ => True := by
  simp only [offer, ends_bind, ends_get, ends_ite, ends_pure]
  split
  · trivial
  · simp only [ends_onSecond, ends_use]
    cases (device.write _ a).1 <;> simp

/-- The queue after a push: shorter by what was taken, or untouched. -/
def Shorter (queue : List QueuedAudio) (p : Pacer) : Prop :=
  p.queue = queue ∨ audioBacklog p.queue < audioBacklog queue

theorem Shorter.pop {p : Pacer} {front : QueuedAudio} {others : List QueuedAudio}
    (h : p.Shorter others) : audioBacklog p.queue < audioBacklog (front :: others) := by
  have hpop : audioBacklog others < audioBacklog (front :: others) := by simp [audioBacklog]
  rcases h with h | h
  · rw [h]
    exact hpop
  · exact Nat.lt_trans h hpop

/-- Writing makes the backlog less, or leaves the queue, by induction on the buffers. -/
theorem write_ends (device : AudioDevice α) (release : Nat → Action α Unit) (n : Nat)
    (p : Pacer) (a : α) :
    (write device release n).Ends (p, a) (fun _ t => t.1.Shorter p.queue) fun _ _ => True := by
  induction n generalizing p a with
  | zero => exact Or.inl rfl
  | succ n ih =>
    simp only [write, ends_bind, ends_get]
    cases hqueue : p.queue with
    | nil => exact Or.inl hqueue
    | cons front others =>
      simp only [ends_bind]
      refine (offer_ends device front.rest p a).imp ?_ fun _ _ _ => trivial
      rintro taken ⟨p', a'⟩ rfl
      simp only [ends_get, ends_update, ends_ite]
      split
      · -- something is left of the front buffer, so the loop ends here
        next hleft =>
        rcases Nat.eq_zero_or_pos taken with rfl | htaken
        · exact Or.inl (by simp)
        · exact Or.inr (by simp [audioBacklog]; omega)
      -- the front buffer is done, which makes the backlog less
      · simp only [ends_bind, ends_update, ends_onSecond]
        refine ends_of_forall (fun _ a' => ?_) fun _ _ => trivial
        exact (ih _ a').imp (fun _ _ ht => Or.inr ht.pop) fun _ _ he => he

/-- A push that does not fail leaves the queue as it was, or takes something from it. -/
theorem push_ends (device : AudioDevice α) (release : Nat → Action α Unit) (p : Pacer) (a : α) :
    (push device release).Ends (p, a) (fun _ t => t.1.Shorter p.queue) fun _ _ => True := by
  simp only [push, schedule, ends_bind, ends_update, ends_get, ends_ite, ends_pure]
  refine (write_ends device release _ _ a).imp (fun _ t ht => ?_) fun _ _ he => he
  split <;> exact ht

/-! ## Outputs under which a push gets on -/

/-- The output takes something of what it is offered, its frames have `frameSize` bytes, and half
of its ring plays for at least a microsecond. -/
structure Responsive (device : AudioDevice α) (frameSize : Nat) : Prop where
  frameSize_eq : ∀ a, device.frameSize a = frameSize
  frameSize_pos : 0 < frameSize
  takes : ∀ bytes a, bytes ≠ [] → (device.write bytes a).1 ≠ .ok 0
  plays : ∀ a, 2 ≤ device.frameCount a * 1000000 / max (device.sampleRate a) 1

section Responsive

variable {device : AudioDevice α} {frameSize : Nat}

theorem account_partial (p : Pacer) (n : Nat) (hframe : 0 < frameSize) :
    (p.account n frameSize).partialBytes < frameSize := by
  have hmax : max frameSize 1 = frameSize := Nat.max_eq_left hframe
  simp only [account, hmax]
  exact Nat.mod_lt _ hframe

/-- Writing leaves less than a frame over, unless there is nothing to be written. -/
theorem write_partial (hdevice : Responsive device frameSize) (give : Nat → Action α Unit)
    (n : Nat) (p : Pacer) (a : α)
    (hn : p.queue.length ≤ n ∨ p.partialBytes < frameSize) :
    (write device give n).Ends (p, a)
      (fun _ t => t.1.queue = [] ∨ t.1.partialBytes < frameSize) fun _ _ => True := by
  induction n generalizing p a with
  | zero =>
    -- without a write nothing is counted, but then nothing waits either
    rcases hn with hn | hn
    · exact Or.inl (List.length_eq_zero_iff.mp (Nat.le_zero.mp hn))
    · exact Or.inr hn
  | succ n ih =>
    simp only [write, ends_bind, ends_get]
    cases hqueue : p.queue with
    | nil => exact Or.inl hqueue
    | cons front others =>
      simp only [ends_bind]
      refine (offer_ends device front.rest p a).imp (fun taken t _ => ?_) fun _ _ _ => trivial
      obtain ⟨p', a'⟩ := t
      have hpartial := account_partial p' taken hdevice.frameSize_pos
      simp only [ends_get, ends_update, ends_ite, ends_bind, ends_onSecond,
        hdevice.frameSize_eq]
      split
      · exact Or.inr hpartial
      · refine ends_of_forall (fun _ a' => ?_) fun _ _ => trivial
        exact ih _ a' (Or.inr hpartial)

/-- A push that asks for another one leaves less than a frame begun. -/
theorem push_partial (hdevice : Responsive device frameSize) (give : Nat → Action α Unit)
    (p : Pacer) (a : α) :
    (push device give).Ends (p, a) (fun wait t => wait ≠ none → t.1.partialBytes < frameSize)
      fun _ _ => True := by
  simp only [push, schedule, ends_bind, ends_update, ends_get, ends_ite, ends_pure]
  have hwrite := write_partial hdevice give p.queue.length
    { p with pushPending := false } a (Or.inl (Nat.le_refl _))
  refine hwrite.imp (fun _ t ht => ?_) fun _ _ _ => trivial
  rcases ht with ht | ht
  · simp [ht]
  · split <;> exact fun _ => ht

/-- A full ring is played for a while. -/
theorem delay_pos (hdevice : Responsive device frameSize) {p : Pacer} {a : α}
    (hroom : p.headroom device a = 0) : 0 < p.delay device a := by
  have hfull : device.frameCount a ≤ p.inFlight device a := by
    unfold headroom at hroom
    rw [hdevice.frameSize_eq] at hroom
    rcases Nat.mul_eq_zero.mp hroom with hroom | hroom
    · omega
    · exact absurd hroom (Nat.ne_of_gt hdevice.frameSize_pos)
  have hplays : 2 ≤ p.inFlight device a * 1000000 / max (device.sampleRate a) 1 :=
    Nat.le_trans (hdevice.plays a) (Nat.div_le_div_right (Nat.mul_le_mul_right _ hfull))
  -- half of two microseconds, rounded down
  unfold delay
  omega

/-- With less than a frame begun, counting no bytes adds no frame. -/
theorem account_zero {p : Pacer} (hpartial : p.partialBytes < frameSize) :
    (p.account 0 frameSize).framesWritten = p.framesWritten := by
  have hmax : max frameSize 1 = frameSize := Nat.max_eq_left (by omega)
  simp [account, hmax, Nat.div_eq_of_lt hpartial]

/-- An offer takes nothing only of nothing, or for want of room. -/
theorem offer_zero (hdevice : Responsive device frameSize) (bytes : List UInt8) (p : Pacer)
    (a : α) :
    (offer device bytes).Ends (p, a)
      (fun taken t => t.1 = p ∧ (taken = 0 → bytes = [] ∨ p.headroom device a = 0 ∧ t.2 = a))
      fun _ _ => True := by
  simp only [offer, ends_bind, ends_get, ends_ite, ends_pure]
  split
  · next hnone => exact ⟨trivial, fun _ => hnone.symm.imp id fun hroom => ⟨hroom, trivial⟩⟩
  · next hsome =>
    obtain ⟨hroom, hbytes⟩ := not_or.mp hsome
    -- a device that is responsive takes something of what is not empty
    have htakes := hdevice.takes (bytes.take (p.headroom device a)) a (by simp [hroom, hbytes])
    simp only [ends_onSecond, ends_use]
    cases hanswer : (device.write (bytes.take (p.headroom device a)) a).1 with
    | error reason => trivial
    | ok taken => exact ⟨rfl, fun hzero => absurd (hzero ▸ hanswer) htakes⟩

/-- Writing takes something, or the ring is full and stays as it is. -/
theorem write_waits (hdevice : Responsive device frameSize) (give : Nat → Action α Unit)
    (n : Nat) {p : Pacer} {a : α}
    (hpartial : p.partialBytes < frameSize) (hqueue : p.queue ≠ []) :
    (write device give (n + 1)).Ends (p, a)
      (fun _ t => audioBacklog t.1.queue < audioBacklog p.queue ∨
        p.headroom device a = 0 ∧ t.2 = a ∧ t.1.framesWritten = p.framesWritten)
      fun _ _ => True := by
  obtain ⟨front, others, hqueue⟩ := List.exists_cons_of_ne_nil hqueue
  simp only [write, ends_bind, ends_get, hqueue]
  refine (offer_zero hdevice front.rest p a).imp ?_ fun _ _ _ => trivial
  rintro taken ⟨p', a'⟩ ⟨hp, hzero⟩
  obtain rfl : p' = p := hp
  simp only [ends_update, ends_ite, ends_bind, ends_onSecond, hdevice.frameSize_eq]
  split
  -- something is left of the front: nothing was taken because of the room, or something was
  · next hleft =>
    rcases Nat.eq_zero_or_pos taken with rfl | htaken
    · rcases hzero rfl with hnil | ⟨hroom, ha⟩
      · simp [hnil] at hleft
      · exact Or.inr ⟨hroom, ha, account_zero hpartial⟩
    · refine Or.inl ?_
      simp [audioBacklog]
      omega
  -- the front buffer goes back, which counts too
  · refine ends_of_forall (fun _ a' => ?_) fun _ _ => trivial
    exact (write_ends device give n _ a').imp (fun _ _ ht => Or.inl ht.pop) fun _ _ he => he

/-- A push takes something, or the next push waits. -/
theorem push_waits (hdevice : Responsive device frameSize) (give : Nat → Action α Unit)
    {p : Pacer} {a : α} (hpartial : p.partialBytes < frameSize) :
    (push device give).Ends (p, a) (fun wait t => ¬ (wait = some 0 ∧ t.1.queue = p.queue))
      fun _ _ => True := by
  simp only [push, schedule, ends_bind, ends_update, ends_get, ends_ite, ends_pure]
  -- with an empty queue no push is asked for
  by_cases hqueue : p.queue = []
  · simp [hqueue, write]
  · obtain ⟨n, hn⟩ := Nat.exists_eq_succ_of_ne_zero (mt List.length_eq_zero_iff.mp hqueue)
    have hwrite := write_waits hdevice give n (a := a)
      (p := { p with pushPending := false }) hpartial hqueue
    rw [hn]
    refine hwrite.imp (fun _ t ht => ?_) fun _ _ he => he
    obtain ⟨p', a'⟩ := t
    rcases ht with hless | ⟨hroom, ha, hframes⟩
    · have hne : p'.queue ≠ p.queue := fun heq => by simp [heq] at hless
      split <;> exact fun h => hne h.2
    · -- the ring is as full as before, so the delay is that of a full ring
      obtain rfl : a' = a := ha
      have hdelay : 0 < p'.delay device a' := by
        have hframes : p'.framesWritten = p.framesWritten := hframes
        refine delay_pos hdevice ?_
        simpa only [headroom, inFlight, hframes] using hroom
      split
      · simp
      · simp only [Option.some.injEq, not_and]
        exact fun h => absurd h (Nat.ne_of_gt hdelay)

end Responsive

/-! ## The slots of waiting buffers -/

/-- The output slots that the waiting buffers are in. -/
def slots (p : Pacer) : List Nat := p.queue.map (·.slot)

theorem enqueue_ends (device : AudioDevice α) (o : DecodedOutput) (p : Pacer) (a : α)
    {E : Fault → Pacer × α → Prop} :
    (enqueue device o).Ends (p, a) (fun _ t => t.1.slots = p.slots ++ [o.slot] ∧ t.2 = a) E := by
  simp only [enqueue, schedule, ends_bind, ends_update, ends_get, ends_ite, ends_pure]
  split <;> simp [slots]

section Returning

variable {device : AudioDevice α} {give : Nat → Action α Unit} {Own : List Nat → α → Prop}
  {F : Fault → α → Prop} {p : Pacer} {a : α}

/-- Writing gives away the slots of the buffers that leave the queue, and no others. -/
theorem write_owns (hgive : Passes give Own F)
    (hwrite : ∀ held bytes a, Own held a → Own held (device.write bytes a).2) (n : Nat)
    (h : Own p.slots a) :
    (write device give n).Ends (p, a) (fun _ t => Own t.1.slots t.2)
      fun e t => Own t.1.slots t.2 ∧ (F e t.2 ∨ ∃ reason, e = .audioSink reason) := by
  induction n generalizing p a with
  | zero => exact h
  | succ n ih =>
    simp only [write, ends_bind, ends_get]
    cases hqueue : p.queue with
    | nil => exact h
    | cons front others =>
      have hoffer : (offer device front.rest).Ends (p, a) (fun _ t => t.1 = p ∧ Own p.slots t.2)
          fun e t => Own t.1.slots t.2 ∧ (F e t.2 ∨ ∃ reason, e = .audioSink reason) := by
        simp only [offer, ends_bind, ends_get, ends_ite, ends_pure]
        split
        · exact ⟨trivial, h⟩
        · have hrest := hwrite p.slots (front.rest.take (p.headroom device a)) a h
          simp only [ends_onSecond, ends_use]
          cases (device.write _ a).1 with
          | ok taken => exact ⟨rfl, hrest⟩
          | error reason => exact ⟨hrest, Or.inr ⟨reason, rfl⟩⟩
      simp only [ends_bind]
      refine hoffer.imp ?_ fun _ _ ht => ht
      rintro taken ⟨p', a'⟩ ⟨hp, ha'⟩
      obtain rfl : p' = p := hp
      have hfront : Own (front.slot :: others.map (·.slot)) a' := by
        simpa [slots, hqueue] using ha'
      simp only [ends_get, ends_update, ends_ite, ends_bind, ends_onSecond]
      -- a slot is given away once its last byte was taken
      split
      · exact hfront
      · exact (hgive _ _ _ hfront).imp (fun _ _ ha => ih ha) fun _ _ ha => ⟨ha.1, Or.inl ha.2⟩

theorem push_owns (hgive : Passes give Own F)
    (hwrite : ∀ held bytes a, Own held a → Own held (device.write bytes a).2)
    (h : Own p.slots a) :
    (push device give).Ends (p, a) (fun _ t => Own t.1.slots t.2)
      fun e t => Own t.1.slots t.2 ∧ (F e t.2 ∨ ∃ reason, e = .audioSink reason) := by
  simp only [push, schedule, ends_bind, ends_update, ends_get, ends_ite, ends_pure]
  have hwritten := write_owns (p := { p with pushPending := false }) hgive hwrite p.queue.length h
  refine hwritten.imp (fun _ t ht => ?_) fun _ _ ht => ht
  split <;> exact ht

/-- Releasing gives away the slots of all buffers, in the order of the queue. -/
theorem releaseQueue_gives {I : List Nat → α → Prop} {E : Fault → List Nat → α → Prop}
    (hgive : ∀ slot rest a, I (slot :: rest) a →
      (give slot).Ends a (fun _ a => I rest a) fun e a => E e rest a)
    (n : Nat) (hn : p.queue.length ≤ n) (h : I p.slots a) :
    (releaseQueue give n).Ends (p, a) (fun _ t => t.1.queue = [] ∧ I [] t.2)
      fun e t => E e t.1.slots t.2 := by
  induction n generalizing p a with
  | zero =>
    have hempty : p.queue = [] := List.length_eq_zero_iff.mp (Nat.le_zero.mp hn)
    rw [slots, hempty] at h
    exact ⟨hempty, h⟩
  | succ n ih =>
    simp only [releaseQueue, ends_bind, ends_get]
    cases hqueue : p.queue with
    | nil =>
      rw [slots, hqueue] at h
      exact ⟨hqueue, h⟩
    | cons front others => -- the front buffer leaves the queue before its slot is given away
      simp only [ends_bind, ends_update, ends_onSecond]
      have hfront : I (front.slot :: others.map (·.slot)) a := by
        simpa [slots, hqueue] using h
      rw [hqueue] at hn
      exact (hgive _ _ _ hfront).imp (fun _ _ ha => ih (Nat.le_of_succ_le_succ hn) ha)
        fun _ _ ha => ha

/-- All buffers go back. -/
theorem releaseAll_gives {I : List Nat → α → Prop} {E : Fault → List Nat → α → Prop}
    (hgive : ∀ slot rest a, I (slot :: rest) a →
      (give slot).Ends a (fun _ a => I rest a) fun e a => E e rest a) (h : I p.slots a) :
    (releaseAll give).Ends (p, a) (fun _ t => t.1.queue = [] ∧ I [] t.2)
      fun e t => E e t.1.slots t.2 := by
  simp only [releaseAll, ends_bind, ends_update, ends_get]
  exact releaseQueue_gives hgive _ (Nat.le_refl _) h

theorem releaseAll_owns (hgive : Passes give Own F) (h : Own p.slots a) :
    (releaseAll give).Ends (p, a) (fun _ t => Own t.1.slots t.2)
      fun e t => Own t.1.slots t.2 ∧ F e t.2 := by
  refine (releaseAll_gives hgive h).imp ?_ fun _ _ ht => ht
  intro _ t ht
  rw [slots, ht.1]
  exact ht.2

end Returning

/-! ## Asking for pushes -/

/-- While something waits a push has been asked for. -/
def Asking (p : Pacer) : Prop := p.queue ≠ [] → p.pushPending = true

section Asking

variable {device : AudioDevice α} {p : Pacer} {a : α} {E : Fault → Pacer × α → Prop}

/-- A push is asked for by an answer, unless one has been asked for or nothing waits. -/
theorem schedule_asks : (schedule device).Ends (p, a)
    (fun wait t => t.1.Asking ∧ t.1.pushPending.toNat = p.pushPending.toNat + wait.isSome.toNat)
    E := by
  simp only [schedule, ends_bind, ends_get, ends_ite, ends_pure, ends_update]
  cases hpending : p.pushPending with
  | true => exact ⟨fun _ => hpending, by simp⟩
  | false =>
    cases hqueue : p.queue with
    | nil => exact ⟨fun hne => absurd hqueue hne, by simp⟩
    | cons front others => exact ⟨fun _ => rfl, rfl⟩

/-- An output asks for a push unless one is asked for already. -/
theorem enqueue_asks (o : DecodedOutput) : (enqueue device o).Ends (p, a)
    (fun wait t => t.1.Asking ∧ t.1.pushPending.toNat = p.pushPending.toNat + wait.isSome.toNat)
    E := by
  simp only [enqueue, ends_bind, ends_update]
  exact schedule_asks

/-- Writing asks for nothing. -/
theorem write_pending (give : Nat → Action α Unit) (n : Nat) :
    (write device give n).Ends (p, a) (fun _ t => t.1.pushPending = p.pushPending)
      fun _ _ => True := by
  induction n generalizing p a with
  | zero => rfl
  | succ n ih =>
    simp only [write, ends_bind, ends_get]
    cases p.queue with
    | nil => rfl
    | cons front others =>
      simp only [ends_bind]
      -- neither the offer nor the way back touches the mark
      refine (offer_ends device front.rest p a).imp ?_ fun _ _ _ => trivial
      rintro taken ⟨p', a'⟩ rfl
      simp only [ends_get, ends_update, ends_ite]
      split
      · rfl
      · simp only [ends_bind, ends_update, ends_onSecond]
        exact ends_of_forall (fun _ _ => ih) fun _ _ => trivial

/-- What a push asks for is all that has been asked for then. -/
theorem push_asks (give : Nat → Action α Unit) : (push device give).Ends (p, a)
    (fun wait t => t.1.Asking ∧ t.1.pushPending.toNat = wait.isSome.toNat) fun _ _ => True := by
  simp only [push, ends_bind, ends_update, ends_get]
  refine (write_pending give p.queue.length).imp (fun _ t ht => ?_) fun _ _ _ => trivial
  refine schedule_asks.imp (fun wait t' ht' => ⟨ht'.1, ?_⟩) fun _ _ he => he
  rw [ht'.2, ht, Bool.toNat_false, Nat.zero_add]

end Asking

end Pacer

end Playout
