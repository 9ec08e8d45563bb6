import Mathlib.Data.List.Perm.Basic
import Mathlib.Data.List.ReduceOption
import Playout.Platform.Simulated

/-!
# What an echoing decoder does with its output slots

Every output slot of the decoder is free, or it is handed out with a unit in it (`Stocked`). Handing
out takes units from the decoded ones and slots from the free ones, both in their order, until one
of them runs out:

    emit_handsOut     what is posted, and what is left
    takeBack_stocked  a slot that is handed out can be taken back, with its unit

No unit is lost on either way.
-/

namespace Playout

/-- The unit that an output was decoded from. -/
def DecodedOutput.unit (o : DecodedOutput) : AccessUnit := ⟨o.pts, o.payload⟩

/-- The message that reports an output. -/
def DecodedOutput.report (track : Nat) (o : DecodedOutput) : Message :=
  .outputReady track o.slot o.pts o.payload

section Slots

variable {α : Type} {slots : List (Option α)} {i : Nat} {a : α}

/-- What is put into an empty slot is in the slots with the rest. -/
theorem reduceOption_put (h : slots[i]? = some none) (a : α) :
    (slots.set i (some a)).reduceOption.Perm (a :: slots.reduceOption) := by
  induction slots generalizing i with
  | nil => cases h
  | cons x slots ih =>
    cases i with
    | zero => -- the empty slot is this one, or further on
      cases h
      exact List.Perm.refl _
    | succ i =>
      have hslots := ih h
      cases x with
      | none => exact hslots
      | some b => exact (hslots.cons b).trans (List.Perm.swap a b _)

/-- What is taken out of a slot was in the slots with the rest. -/
theorem reduceOption_take (h : slots[i]? = some (some a)) :
    slots.reduceOption.Perm (a :: (slots.set i none).reduceOption) := by
  have hlt : i < slots.length := (List.getElem?_eq_some_iff.mp h).1
  have hback : (slots.set i none).set i (some a) = slots := by
    obtain ⟨_, hself⟩ := List.getElem?_eq_some_iff.mp h
    rw [List.set_set, ← hself, List.set_getElem_self]
  have hempty : (slots.set i none)[i]? = some none := by simp [hlt]
  have hput := reduceOption_put hempty a
  rwa [hback] at hput

end Slots

namespace EchoDecoder

/-- The units in the slots that are handed out. -/
def handedOut (d : EchoDecoder) : List AccessUnit := d.outputs.reduceOption

/-- Of `size` output slots each is free, once, or it is handed out with a unit in it. -/
structure Stocked (size : Nat) (d : EchoDecoder) : Prop where
  length : d.outputs.length = size
  free_nodup : d.freeOutputs.Nodup
  free_lt : ∀ i ∈ d.freeOutputs, i < size
  filled : ∀ i < size, i ∉ d.freeOutputs ↔ ∃ u, d.outputs[i]? = some (some u)

/-- A decoder, having had `units` to hand out, has posted messages about the first of them. -/
structure HandsOut (size track : Nat) (units : List AccessUnit) (d : EchoDecoder)
    (posted : List Message) (d' : EchoDecoder) : Prop where
  stocked : d'.Stocked size
  posted : ∃ outs : List DecodedOutput, posted = outs.map (·.report track) ∧
    outs.map (·.slot) ++ d'.freeOutputs = d.freeOutputs ∧
    outs.map (·.unit) ++ d'.decoded = units
  conserved : (d'.decoded ++ d'.handedOut).Perm (units ++ d.handedOut)
  exhausted : d'.decoded = [] ∨ d'.freeOutputs = []
  onSurface : d'.onSurface = d.onSurface

variable {size track : Nat} {d : EchoDecoder}

/-- At first every slot is free. -/
theorem new_stocked (outputs : Nat) : (new outputs).Stocked outputs := by
  refine ⟨List.length_replicate, List.nodup_range, fun i hi => List.mem_range.mp hi, ?_⟩
  intro i hi
  simp [new, hi]

/-- Only the slots matter. -/
theorem Stocked.congr {d' : EchoDecoder} (h : d.Stocked size)
    (hfree : d'.freeOutputs = d.freeOutputs) (houtputs : d'.outputs = d.outputs) :
    d'.Stocked size where
  length := by rw [houtputs]; exact h.length
  free_nodup := by rw [hfree]; exact h.free_nodup
  free_lt := by rw [hfree]; exact h.free_lt
  filled := by rw [hfree, houtputs]; exact h.filled

/-- A free slot is empty. -/
theorem Stocked.empty (h : d.Stocked size) {slot : Nat} (hslot : slot ∈ d.freeOutputs) :
    d.outputs[slot]? = some none := by
  have hlt := h.free_lt slot hslot
  have hnot : ¬ ∃ u, d.outputs[slot]? = some (some u) := fun hu => (h.filled slot hlt).mpr hu hslot
  rw [← h.length] at hlt
  rw [List.getElem?_eq_getElem hlt] at hnot ⊢
  cases hunit : d.outputs[slot] with
  | none => rfl
  | some u => exact absurd ⟨u, by rw [hunit]⟩ hnot

/-- A decoder that has all its output slots holds no unit. -/
theorem Stocked.handedOut_eq_nil (h : d.Stocked size)
    (hall : ∀ i < size, i ∈ d.freeOutputs) : d.handedOut = [] := by
  have hempty : d.outputs = List.replicate d.outputs.length none := by
    refine List.eq_replicate_of_mem fun unit hunit => ?_
    obtain ⟨i, hi, rfl⟩ := List.getElem_of_mem hunit
    have hslot := h.empty (hall i (h.length ▸ hi))
    rw [List.getElem?_eq_getElem hi] at hslot
    exact Option.some.inj hslot
  rw [handedOut, hempty, List.reduceOption_replicate_none]

/-- The first free slot is handed out. -/
theorem Stocked.handOut (h : d.Stocked size) {slot : Nat} {free : List Nat}
    (hfree : d.freeOutputs = slot :: free) (u : AccessUnit) :
    { d with freeOutputs := free, outputs := d.outputs.set slot (some u) }.Stocked size := by
  have hnodup := h.free_nodup
  rw [hfree] at hnodup
  obtain ⟨hnot, hrest⟩ := List.nodup_cons.mp hnodup
  have hslot : slot < d.outputs.length := by
    rw [h.length]
    exact h.free_lt slot (hfree ▸ List.mem_cons_self)
  refine ⟨by simpa using h.length, hrest, ?_, ?_⟩
  · intro i hi
    exact h.free_lt i (hfree ▸ List.mem_cons_of_mem _ hi)
  -- only the slot that is handed out is no longer free, and it has got the unit
  · intro i hi
    by_cases heq : i = slot
    · subst heq
      simp [hnot, hslot]
    · have hfilled := h.filled i hi
      rw [hfree, List.mem_cons, or_iff_right heq] at hfilled
      simpa [Ne.symm heq] using hfilled

/-- Nothing but reports is posted. -/
theorem emit_reports (track : Nat) (units : List AccessUnit) (d : EchoDecoder) :
    ∃ outs : List DecodedOutput, (d.emit track units).1 = outs.map (·.report track) := by
  -- by induction on the units, each of which takes a slot as long as there is one
  induction units generalizing d with
  | nil => exact ⟨[], rfl⟩
  | cons u units ih =>
    unfold emit
    split
    · exact ⟨[], rfl⟩
    · next slot free _ =>
      obtain ⟨outs, houts⟩ :=
        ih { d with freeOutputs := free, outputs := d.outputs.set slot (some u) }
      exact ⟨⟨slot, u.pts, u.payload⟩ :: outs, congrArg (_ :: ·) houts⟩

/-- Units are handed out as long as there are free slots, by induction on the units. -/
theorem emit_handsOut (units : List AccessUnit) (h : d.Stocked size) :
    HandsOut size track units d (d.emit track units).1 (d.emit track units).2 := by
  induction units generalizing d with
  | nil =>
    exact ⟨h.congr rfl rfl, ⟨[], rfl, rfl, rfl⟩, List.Perm.refl _,
      Or.inl rfl, rfl⟩
  | cons u units ih =>
    unfold emit
    split
    · next hfree => -- no slot is left for the first unit
      exact ⟨h.congr rfl rfl, ⟨[], rfl, rfl, rfl⟩, List.Perm.refl _,
        Or.inr hfree, rfl⟩
    · next slot free hfree => -- the first unit goes into the first free slot, and the rest follow
      obtain ⟨hstocked, ⟨outs, hposted, hslots, hunits⟩, hconserved, hexhausted, hsurface⟩ :=
        ih (h.handOut hfree u)
      refine ⟨hstocked, ⟨⟨slot, u.pts, u.payload⟩ :: outs, ?_, ?_, ?_⟩, ?_, hexhausted, hsurface⟩
      · exact congrArg (_ :: ·) hposted
      · rw [hfree]
        exact congrArg (slot :: ·) hslots
      · exact congrArg (u :: ·) hunits
      · have hempty : d.outputs[slot]? = some none := h.empty (hfree ▸ List.mem_cons_self)
        have hput : (units ++ (d.outputs.set slot (some u)).reduceOption).Perm
            (u :: (units ++ d.outputs.reduceOption)) :=
          ((reduceOption_put hempty u).append_left units).trans List.perm_middle
        exact hconserved.trans hput

/-- A slot that is handed out is taken back with its unit. -/
theorem takeBack_stocked (h : d.Stocked size) {slot : Nat} (hslot : slot < size)
    (hout : slot ∉ d.freeOutputs) :
    ∃ u d', d.takeBack slot = (.ok u, d') ∧ d'.Stocked size ∧
      d'.freeOutputs = d.freeOutputs ++ [slot] ∧ d'.decoded = d.decoded ∧
      d'.onSurface = d.onSurface ∧ d.handedOut.Perm (u :: d'.handedOut) := by
  obtain ⟨u, hu⟩ := (h.filled slot hslot).mp hout
  refine ⟨u, { d with
    freeOutputs := d.freeOutputs ++ [slot]
    outputs := d.outputs.set slot none }, ?_, ⟨?_, ?_, ?_, ?_⟩, rfl, rfl, rfl, ?_⟩
  · simp only [takeBack, hu, Option.join_some]
    rfl
  · simpa using h.length
  · exact (List.perm_append_singleton slot d.freeOutputs).nodup_iff.mpr
      (List.nodup_cons.mpr ⟨hout, h.free_nodup⟩)
  · intro i hi
    rcases List.mem_append.mp hi with hi | hi
    · exact h.free_lt i hi
    · rwa [List.mem_singleton.mp hi]
  -- the slot itself is free and empty now
  · intro i hi
    by_cases heq : i = slot
    · subst heq
      simp [h.length, hslot]
    · have hfilled := h.filled i hi
      simpa [heq, Ne.symm heq] using hfilled
  · exact reduceOption_take hu

end EchoDecoder

end Playout
