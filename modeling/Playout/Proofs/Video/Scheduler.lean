import Playout.Video.Scheduler
import Playout.Proofs.Action

/-!
# What remains after presenting

After every frame whose time has come is presented, the front frame is one whose time is still
to come, so that the next wake-up is asked for a later moment.

The slots of the frames that leave the queue are given away, those of the others are kept.

The wake-up is armed for the front frame at all times (`Armed`): the answer is a wait whenever the
front frame changes.
-/

namespace Playout.Scheduler

open Playout.Action

variable {α : Type}

@[simp] theorem ends_update {Q : Unit → Scheduler × α → Prop} {E : Fault → Scheduler × α → Prop}
    (f : Scheduler → Scheduler) (s : Scheduler) (a : α) :
    (update f : Step α Unit).Ends (s, a) Q E ↔ Q () (f s, a) := Iff.rfl

/-- Only the wake-up changes when it is armed. -/
theorem schedule_eq (s : Scheduler) (now : Int) :
    (schedule now s).2 = { s with armedFor := (schedule now s).2.armedFor } := by
  unfold schedule
  split <;> rfl

/-- Only the queue and the wake-up change when a frame comes. -/
theorem enqueue_eq (s : Scheduler) (o : DecodedOutput) (now : Int) :
    (s.enqueue o now).2 =
      { s with queue := place o s.queue, armedFor := (s.enqueue o now).2.armedFor } := by
  unfold enqueue
  dsimp only
  split
  · rfl
  · rw [schedule_eq]

/-- No wake-up is armed, and the front frame is not due. -/
def Ahead (now : Int) (s : Scheduler) : Prop :=
  s.armedFor = none ∧ ∀ front ∈ s.queue.head?, now < front.pts

/-- After presenting, the frames that wait are not due, by induction on the fuel. -/
theorem present_ends (render : Nat → Action α Unit) (now : Int) (n : Nat) (s : Scheduler)
    (a : α) (harmed : s.armedFor = none) (hn : s.queue.length ≤ n) :
    (present render now n).Ends (s, a) (fun _ t => t.1.Ahead now) fun _ _ => True := by
  induction n generalizing s a with
  | zero => exact ⟨harmed, by simp [List.length_eq_zero_iff.mp (Nat.le_zero.mp hn)]⟩
  | succ n ih =>
    simp only [present, ends_bind, ends_get]
    cases hqueue : s.queue with
    | nil => exact ⟨harmed, by simp [hqueue]⟩
    | cons front others =>
      simp only [ends_ite, ends_pure, ends_bind, ends_update, ends_onSecond]
      -- a front frame whose time is still to come ends the loop; the others are presented
      split
      · next hahead => exact ⟨harmed, by simpa [hqueue] using hahead⟩
      · refine ends_of_forall (fun _ a' => ?_) fun _ _ => trivial
        exact ih _ a' harmed (by simpa [hqueue] using hn)

/-- The wake-up that presenting asks for is not due yet. -/
theorem renderDue_ends (render : Nat → Action α Unit) (now : Int) (s : Scheduler) (a : α) :
    (renderDue render now).Ends (s, a) (fun wait _ => ∀ delay ∈ wait, 0 < delay)
      fun _ _ => True := by
  simp only [renderDue, ends_bind, ends_update, ends_get]
  have hpresent := present_ends render now s.queue.length { s with armedFor := none } a rfl
    (Nat.le_refl _)
  refine hpresent.imp (fun _ t ht => ?_) fun _ _ he => he
  obtain ⟨harmed, hfront⟩ := ht
  simp only [ends_onFirst, ends_use, schedule, harmed]
  cases hqueue : t.1.queue with
  | nil => simp
  | cons front others => -- the front frame is not due, so the wait is not zero
    have : now < front.pts := hfront front (by simp [hqueue])
    simp
    omega

/-- After presenting, the front frame is not due. -/
theorem renderDue_ahead (render : Nat → Action α Unit) (now : Int) (s : Scheduler) (a : α) :
    (renderDue render now).Ends (s, a) (fun _ t => ∀ front ∈ t.1.queue.head?, now < front.pts)
      fun _ _ => True := by
  simp only [renderDue, ends_bind, ends_update, ends_get]
  refine (present_ends render now s.queue.length { s with armedFor := none } a rfl
    (Nat.le_refl _)).imp (fun _ t ht => ?_) fun _ _ he => he
  rw [ends_onFirst, ends_use, schedule_eq]
  exact ht.2

/-! ## The slots of waiting frames -/

/-- The output slots that the waiting frames are in. -/
def slots (s : Scheduler) : List Nat := s.queue.map (·.slot)

/-- A frame that is placed brings its slot. -/
theorem place_slots (o : DecodedOutput) (queue : List DecodedOutput) :
    ((place o queue).map (·.slot)).Perm (o.slot :: queue.map (·.slot)) := by
  induction queue with
  | nil => exact List.Perm.refl _
  | cons f rest ih =>
    unfold place
    split
    · exact (ih.cons f.slot).trans (List.Perm.swap _ _ _)
    · exact List.Perm.refl _

theorem enqueue_slots (s : Scheduler) (o : DecodedOutput) (now : Int) :
    (s.enqueue o now).2.slots.Perm (o.slot :: s.slots) := by
  rw [enqueue_eq]
  exact place_slots o s.queue

section Returning

variable {give : Nat → Action α Unit} {Own : List Nat → α → Prop} {F : Fault → α → Prop}
  {s : Scheduler} {a : α}

/-- What holds of each frame that is presented holds of all of them. -/
theorem present_each {now : Int} {J : Scheduler × α → Prop} {E : Fault → Scheduler × α → Prop}
    (hpresented : ∀ s a front others, s.queue = front :: others → front.pts ≤ now → J (s, a) →
      (give front.slot).Ends a (fun _ a' => J ({ s.count front now with queue := others }, a'))
        fun e a' => E e ({ s.count front now with queue := others }, a'))
    (n : Nat) (h : J (s, a)) : (present give now n).Ends (s, a) (fun _ t => J t) E := by
  induction n generalizing s a with
  | zero => exact h
  | succ n ih =>
    simp only [present, ends_bind, ends_get]
    cases hqueue : s.queue with
    | nil => exact h
    | cons front others =>
      simp only [ends_ite, ends_pure, ends_bind, ends_update, ends_onSecond]
      split
      · exact h
      · next hdue => -- a frame that is due is counted and taken out before its slot is given back
        exact (hpresented s a front others hqueue (Int.not_lt.mp hdue) h).imp
          (fun _ _ ha => ih ha) fun _ _ he => he

/-- The same of all frames whose times have come, if the wake-up is of no account. -/
theorem renderDue_each {now : Int} {J : Scheduler × α → Prop} {E : Fault → Scheduler × α → Prop}
    (hpresented : ∀ s a front others, s.queue = front :: others → front.pts ≤ now → J (s, a) →
      (give front.slot).Ends a (fun _ a' => J ({ s.count front now with queue := others }, a'))
        fun e a' => E e ({ s.count front now with queue := others }, a'))
    (harmed : ∀ s a armedFor, J (s, a) → J ({ s with armedFor }, a)) (h : J (s, a)) :
    (renderDue give now).Ends (s, a) (fun _ t => J t) E := by
  simp only [renderDue, ends_bind, ends_update, ends_get]
  refine (present_each hpresented _ (harmed _ _ _ h)).imp (fun _ t ht => ?_) fun _ _ he => he
  rw [ends_onFirst, ends_use, schedule_eq]
  exact harmed _ _ _ ht

/-- What holds of each frame that is released holds of all of them. -/
theorem releaseQueue_each {J : Scheduler × α → Prop} {E : Fault → Scheduler × α → Prop}
    (hreleased : ∀ s a front others, s.queue = front :: others → J (s, a) →
      (give front.slot).Ends a (fun _ a' => J ({ s with queue := others }, a'))
        fun e a' => E e ({ s with queue := others }, a'))
    (n : Nat) (hn : s.queue.length ≤ n) (h : J (s, a)) :
    (releaseQueue give n).Ends (s, a) (fun _ t => t.1.queue = [] ∧ J t) E := by
  induction n generalizing s a with
  | zero => exact ⟨List.length_eq_zero_iff.mp (Nat.le_zero.mp hn), h⟩
  | succ n ih =>
    simp only [releaseQueue, ends_bind, ends_get]
    cases hqueue : s.queue with
    | nil => exact ⟨hqueue, h⟩
    | cons front others => -- the frame leaves the queue even if its slot is refused
      rw [hqueue] at hn
      simp only [ends_bind, ends_update, ends_onSecond]
      exact (hreleased s a front others hqueue h).imp
        (fun _ _ ha => ih (Nat.le_of_succ_le_succ hn) ha) fun _ _ he => he

/-- Presenting gives away the slots of the frames that leave the queue, and no others. -/
theorem renderDue_owns (hgive : Passes give Own F) (now : Int) (h : Own s.slots a) :
    (renderDue give now).Ends (s, a) (fun _ t => Own t.1.slots t.2)
      fun e t => Own t.1.slots t.2 ∧ F e t.2 := by
  refine renderDue_each (J := fun t => Own t.1.slots t.2) ?_ (fun _ _ _ h => h) h
  intro s a front others hqueue _ h
  have hfront : Own (front.slot :: others.map (·.slot)) a := by
    simpa [slots, hqueue] using h
  exact hgive _ _ _ hfront

/-- Releasing gives away the slots of all frames, in the order of the queue. -/
theorem releaseAll_gives {I : List Nat → α → Prop} {E : Fault → List Nat → α → Prop}
    (hgive : ∀ slot rest a, I (slot :: rest) a →
      (give slot).Ends a (fun _ a => I rest a) fun e a => E e rest a) (h : I s.slots a) :
    (releaseAll give).Ends (s, a) (fun _ t => t.1.queue = [] ∧ I [] t.2)
      fun e t => E e t.1.slots t.2 := by
  simp only [releaseAll, ends_bind, ends_update, ends_get]
  refine (releaseQueue_each (s := { s with armedFor := none }) (J := fun t => I t.1.slots t.2)
    (E := fun e t => E e t.1.slots t.2) ?_ _ (Nat.le_refl _) h).imp ?_ fun _ _ he => he
  -- what is kept: the slots in the queue are those still to be given away
  · intro s a front others hqueue h
    have hfront : I (front.slot :: others.map (·.slot)) a := by
      simpa [slots, hqueue] using h
    exact hgive _ _ _ hfront
  · rintro _ t ⟨hempty, ht⟩
    rw [slots, hempty] at ht
    exact ⟨hempty, ht⟩

theorem releaseAll_owns (hgive : Passes give Own F) (h : Own s.slots a) :
    (releaseAll give).Ends (s, a) (fun _ t => Own t.1.slots t.2)
      fun e t => Own t.1.slots t.2 ∧ F e t.2 := by
  refine (releaseAll_gives hgive h).imp ?_ fun _ _ ht => ht
  intro _ t ht
  rw [slots, ht.1]
  exact ht.2

end Returning

/-! ## Wake-ups -/

/-- The wake-up is armed for the front frame, if there is one. -/
def Armed (s : Scheduler) : Prop := s.armedFor = s.queue.head?.map (·.pts)

theorem place_ne_nil (o : DecodedOutput) (queue : List DecodedOutput) : place o queue ≠ [] := by
  cases queue with
  | nil => exact List.cons_ne_nil _ _
  | cons f rest =>
    unfold place
    split <;> exact List.cons_ne_nil _ _

/-- A disarmed scheduler arms the wake-up if a frame waits. -/
theorem schedule_arms {s : Scheduler} (hdisarmed : s.armedFor = none) (now : Int) :
    (schedule now s).2.Armed ∧ (schedule now s).2.queue = s.queue ∧
      ((schedule now s).1 = none ↔ s.queue = []) := by
  unfold schedule Armed
  rw [hdisarmed]
  cases hqueue : s.queue with
  | nil => simp [hdisarmed, hqueue]
  | cons front others => simp

/-- A frame waits afterwards. If no wake-up is asked for, the one that was armed is still right. -/
theorem enqueue_arms {s : Scheduler} (h : s.Armed) (o : DecodedOutput) (now : Int) :
    (s.enqueue o now).2.Armed ∧ (s.enqueue o now).2.queue ≠ [] ∧
      ((s.enqueue o now).1 = none → s.queue ≠ []) := by
  have hne := place_ne_nil o s.queue
  unfold enqueue
  dsimp only
  split
  · next hwakes =>
    -- the wake-up was for the front frame, and the new frame is not before it
    unfold Armed at h
    cases hqueue : s.queue with
    | nil => simp [wakesInTime, h, hqueue] at hwakes
    | cons front others =>
      refine ⟨?_, hqueue ▸ hne, fun _ => List.cons_ne_nil _ _⟩
      rw [hqueue] at h
      have hbehind : front.pts ≤ o.pts := by
        by_cases hle : front.pts ≤ o.pts
        · exact hle
        · simp [wakesInTime, h, hqueue, place, hle] at hwakes
      simpa [Armed, place, hbehind] using h
  · obtain ⟨harmed, hqueue, hwait⟩ :=
      schedule_arms (s := { s with queue := place o s.queue, armedFor := none }) rfl now
    exact ⟨harmed, hqueue ▸ hne, fun hnone => absurd (hwait.mp hnone) hne⟩

/-- After presenting, a wake-up is asked for if a frame still waits. -/
theorem renderDue_arms (render : Nat → Action α Unit) (now : Int) (s : Scheduler) (a : α) :
    (renderDue render now).Ends (s, a)
      (fun wait t => t.1.Armed ∧ (wait = none ↔ t.1.queue = [])) fun _ _ => True := by
  simp only [renderDue, ends_bind, ends_update, ends_get]
  refine (present_ends render now s.queue.length { s with armedFor := none } a rfl
    (Nat.le_refl _)).imp (fun _ t ht => ?_) fun _ _ he => he
  obtain ⟨harmed, hqueue, hwait⟩ := schedule_arms ht.1 now
  rw [ends_onFirst, ends_use, hqueue]
  exact ⟨harmed, hwait⟩

/-- An answer is the wait until the time that the wake-up is armed for. -/
def WaitsFor (now : Int) (answer : Option Nat) (s : Scheduler) : Prop :=
  ∀ delay ∈ answer, ∃ time, s.armedFor = some time ∧ delay = (time - now).toNat

/-- An answer of `schedule` is the wait for the front frame. -/
theorem schedule_waitsFor (now : Int) (s : Scheduler) :
    WaitsFor now (schedule now s).1 (schedule now s).2 := by
  intro delay hdelay
  unfold schedule at hdelay ⊢
  split at hdelay
  · next front others _ _ => exact ⟨front.pts, rfl, (Option.mem_some.mp hdelay).symm⟩
  · cases hdelay

theorem enqueue_waitsFor (s : Scheduler) (o : DecodedOutput) (now : Int) :
    WaitsFor now (s.enqueue o now).1 (s.enqueue o now).2 := by
  unfold enqueue
  dsimp only
  split
  · exact nofun
  · exact schedule_waitsFor now _

/-- Without an answer the wake-up stays armed for the time it was armed for. -/
theorem enqueue_armedFor {s : Scheduler} {o : DecodedOutput} {now : Int}
    (h : (s.enqueue o now).1 = none) : (s.enqueue o now).2.armedFor = s.armedFor := by
  unfold enqueue at h ⊢
  dsimp only at h ⊢
  split at h
  · next hwakes => rw [if_pos hwakes]
  · -- a disarmed scheduler with a frame always answers
    have harms := schedule_arms (s := { s with queue := place o s.queue, armedFor := none }) rfl now
    exact absurd (harms.2.2.mp h) (place_ne_nil o s.queue)

/-- So is an answer of `renderDue`. -/
theorem renderDue_waitsFor (render : Nat → Action α Unit) (now : Int) (s : Scheduler) (a : α) :
    (renderDue render now).Ends (s, a) (fun wait t => WaitsFor now wait t.1) fun _ _ => True := by
  simp only [renderDue, ends_bind, ends_update, ends_get]
  refine ends_of_forall (fun _ t => ?_) fun _ _ => trivial
  rw [ends_onFirst, ends_use]
  exact schedule_waitsFor now t.1

end Playout.Scheduler
