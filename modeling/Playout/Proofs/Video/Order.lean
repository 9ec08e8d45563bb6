import Playout.Proofs.Video.Scheduler

/-!
# The order of the frames

Waiting frames are kept in the order of their times, a new one behind those that are due no later,
and presenting takes frames from the front while their times have come. So frames that come before
their times are presented in the order of their times (`sorted_presented`).
-/

namespace Playout.Scheduler

open Playout.Action

variable {α : Type}

/-- Frames in the order of their presentation times. -/
def Sorted (frames : List DecodedOutput) : Prop := frames.Pairwise fun f g => f.pts ≤ g.pts

theorem mem_place {o f : DecodedOutput} {queue : List DecodedOutput} :
    f ∈ place o queue ↔ f = o ∨ f ∈ queue := by
  induction queue with
  | nil => simp [place]
  | cons g rest ih =>
    unfold place
    split
    · rw [List.mem_cons, ih, List.mem_cons]
      exact or_left_comm
    · rw [List.mem_cons]

/-- A new frame is placed where its time puts it. -/
theorem sorted_place {queue : List DecodedOutput} (h : Sorted queue) (o : DecodedOutput) :
    Sorted (place o queue) := by
  induction queue with
  | nil => exact List.pairwise_singleton _ o
  | cons f rest ih =>
    obtain ⟨hfirst, hrest⟩ := List.pairwise_cons.mp h
    unfold place
    split
    · next hbehind =>
      refine List.pairwise_cons.mpr ⟨?_, ih hrest⟩
      intro g hg
      rcases mem_place.mp hg with rfl | hg
      · exact hbehind
      · exact hfirst g hg
    · next hbefore => -- it is due before the front frame, so before all
      refine List.pairwise_cons.mpr ⟨?_, h⟩
      intro g hg
      have hle : o.pts ≤ f.pts := Int.le_of_lt (Int.not_le.mp hbefore)
      rcases List.mem_cons.mp hg with rfl | hg
      · exact hle
      · exact Int.le_trans hle (hfirst g hg)

theorem enqueue_queue (s : Scheduler) (o : DecodedOutput) (now : Int) :
    (s.enqueue o now).2.queue = place o s.queue := by
  rw [enqueue_eq]

/-! ## Frames presented before, and frames that wait -/

/-- Frames that were presented until the time `clock`, then those that wait, stand in the order of
their times. -/
structure Ordered (clock : Int) (presented queue : List DecodedOutput) : Prop where
  sorted : Sorted (presented ++ queue)
  past : ∀ f ∈ presented, f.pts ≤ clock

theorem Ordered.later {clock now : Int} {presented queue : List DecodedOutput}
    (h : Ordered clock presented queue) (hclock : clock ≤ now) : Ordered now presented queue :=
  ⟨h.sorted, fun f hf => Int.le_trans (h.past f hf) hclock⟩

/-- A frame comes before its time. -/
theorem Ordered.place {now : Int} {presented queue : List DecodedOutput}
    (h : Ordered now presented queue) {o : DecodedOutput} (hearly : now ≤ o.pts) :
    Ordered now presented (place o queue) := by
  obtain ⟨hpresented, hqueue, hbetween⟩ := List.pairwise_append.mp h.sorted
  refine ⟨List.pairwise_append.mpr ⟨hpresented, sorted_place hqueue o, ?_⟩, h.past⟩
  intro f hf g hg
  rcases mem_place.mp hg with rfl | hg
  · exact Int.le_trans (h.past f hf) hearly
  · exact hbetween f hf g hg

/-- Frames whose time has come are presented. -/
theorem Ordered.present {now : Int} {presented first rest : List DecodedOutput}
    (h : Ordered now presented (first ++ rest)) (hdue : ∀ f ∈ first, f.pts ≤ now) :
    Ordered now (presented ++ first) rest := by
  refine ⟨by rw [List.append_assoc]; exact h.sorted, ?_⟩
  intro f hf
  rcases List.mem_append.mp hf with hf | hf
  · exact h.past f hf
  · exact hdue f hf

/-! ## What presenting takes from the queue -/

section Presenting

variable {give : Nat → Action α Unit} {Own : List Nat → α → Prop} {E : Fault → Prop}
  {s : Scheduler} {a : α}

/-- The frames in front are presented, and their times have come. -/
def Presents (now : Int) (s t : Scheduler) : Prop :=
  ∃ first, s.queue = first ++ t.queue ∧ ∀ f ∈ first, f.pts ≤ now

/-- Presenting takes frames from the front, whatever the world does with their slots. -/
theorem renderDue_presents
    (hgive : ∀ slot rest a, Own (slot :: rest) a →
      (give slot).Ends a (fun _ a => Own rest a) fun e _ => E e)
    (now : Int) (h : Own s.slots a) :
    (renderDue give now).Ends (s, a) (fun _ t => Presents now s t.1 ∧ Own t.1.slots t.2)
      fun e _ => E e := by
  refine renderDue_each (J := fun t => Presents now s t.1 ∧ Own t.1.slots t.2) ?_
    (fun _ _ _ h => h) ⟨⟨[], rfl, by simp⟩, h⟩
  rintro r a front others hqueue hdue ⟨⟨first, hfirst, hpast⟩, hown⟩
  -- the slot of the front frame is given away, and the frame joins those that were taken
  have hfront : Own (front.slot :: others.map (·.slot)) a := by
    simpa [slots, hqueue] using hown
  refine (hgive _ _ _ hfront).imp (fun _ a ha => ⟨⟨first ++ [front], ?_, ?_⟩, ha⟩) fun _ _ he => he
  · rw [hfirst, hqueue, List.append_assoc, List.singleton_append]
  · intro f hf
    rcases List.mem_append.mp hf with hf | hf
    · exact hpast f hf
    · cases List.mem_singleton.mp hf
      exact hdue

/-- Presenting keeps what is kept when a frame is given away whose time has come. -/
theorem renderDue_keeps {I : α → Prop} (now : Int)
    (hgive : ∀ f ∈ s.queue, f.pts ≤ now → (give f.slot).Keeps I) (h : I a) :
    (renderDue give now).Ends (s, a) (fun _ t => I t.2) fun _ t => I t.2 := by
  refine (renderDue_each (J := fun t => t.1.queue ⊆ s.queue ∧ I t.2) (E := fun _ t => I t.2) ?_
    (fun _ _ _ h => h) ⟨List.Subset.refl _, h⟩).imp (fun _ _ ht => ht.2) fun _ _ ht => ht
  rintro r a front others hqueue hdue ⟨hsub, ha⟩
  rw [hqueue] at hsub
  obtain ⟨hfront, hothers⟩ := List.cons_subset.mp hsub
  exact (hgive front hfront hdue a ha).imp (fun _ _ ha => ⟨hothers, ha⟩) fun _ _ ha => ha

end Presenting

end Playout.Scheduler
