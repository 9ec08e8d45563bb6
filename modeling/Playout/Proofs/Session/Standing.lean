import Mathlib.Data.List.Perm.Basic
import Playout.Proofs.Session.Recording

/-!
# Where the frames stand

A frame is offered to the decoder when its time has come, and waits for another offer when the
decoder is too busy. `standing` reads off a record which frames were offered, which were accepted
and which wait. A frame is accepted in turn if it is the first of those that wait:

```
accepted_prefix_iff : accepted <+: offered ↔ InTurn calls
```

One frame that overtakes another puts the order out for good.
-/

namespace Playout

/-- Where the frames of the video stand, each named by its output slot. -/
structure Standing where
  /-- Frames in the order of their first offers -/
  offered : List Nat := []
  /-- Frames in the order in which the decoder accepted them -/
  accepted : List Nat := []
  /-- Frames that were offered and not accepted, in the order of their first offers -/
  waiting : List Nat := []
deriving DecidableEq, Repr

namespace Standing

/-- A frame is offered, for the first time unless it waits. -/
def offer (s : Standing) (slot : Nat) : Standing :=
  if slot ∈ s.waiting then s
  else { s with offered := s.offered ++ [slot], waiting := s.waiting ++ [slot] }

def accept (s : Standing) (slot : Nat) : Standing :=
  { s with accepted := s.accepted ++ [slot], waiting := s.waiting.erase slot }

/-- Where the frames stand after one more call. -/
def note (s : Standing) : DeviceCall → Standing
  | .decoder .video _ (.renderOutput slot) none => (s.offer slot).accept slot
  | .decoder .video _ (.renderOutput slot) (some _) => s.offer slot
  | _ => s

end Standing

/-- Where the frames stand after the calls of a record. -/
def standing (calls : List DeviceCall) : Standing := calls.foldr (fun c s => s.note c) {}

/-- When the frame is offered, it is the first of those that wait. -/
def Standing.Next (s : Standing) (slot : Nat) : Prop := (s.offer slot).waiting.head? = some slot

/-- Every frame that the decoder accepted was the next one. -/
def InTurn (calls : List DeviceCall) : Prop :=
  ∀ after serial slot before,
    calls = after ++ .decoder .video serial (.renderOutput slot) none :: before →
      (standing before).Next slot

/-- The call is not one by which a frame is offered. -/
def DeviceCall.OffersNone : DeviceCall → Prop
  | .decoder .video _ (.renderOutput _) _ => False
  | _ => True

@[simp] theorem standing_nil : standing [] = {} := rfl

@[simp] theorem standing_cons (c : DeviceCall) (calls : List DeviceCall) :
    standing (c :: calls) = (standing calls).note c := rfl

/-- Calls that offer no frame change nothing. -/
theorem standing_of_offersNone {c : DeviceCall} (hc : c.OffersNone) (calls : List DeviceCall) :
    standing (c :: calls) = standing calls := by
  rw [standing_cons]
  unfold Standing.note
  split
  · exact hc.elim
  · exact hc.elim
  · rfl

namespace Standing

variable {s : Standing} {slot : Nat}

theorem offer_of_mem (h : slot ∈ s.waiting) : s.offer slot = s := if_pos h

theorem offer_of_not_mem (h : slot ∉ s.waiting) :
    s.offer slot = { s with offered := s.offered ++ [slot], waiting := s.waiting ++ [slot] } :=
  if_neg h

theorem mem_waiting_offer (s : Standing) (slot : Nat) : slot ∈ (s.offer slot).waiting := by
  by_cases h : slot ∈ s.waiting
  · rw [offer_of_mem h]
    exact h
  · rw [offer_of_not_mem h]
    exact List.mem_append_right _ List.mem_cons_self

@[simp] theorem accepted_offer (s : Standing) (slot : Nat) :
    (s.offer slot).accepted = s.accepted := by
  unfold offer
  split <;> rfl

theorem offered_prefix_offer (s : Standing) (slot : Nat) :
    s.offered <+: (s.offer slot).offered := by
  by_cases h : slot ∈ s.waiting
  · have hsame : (s.offer slot).offered = s.offered := congrArg offered (offer_of_mem h)
    exact hsame ▸ List.prefix_rfl
  · rw [offer_of_not_mem h]
    exact List.prefix_append _ _

/-- A frame that did not wait does not wait when it has been accepted. -/
theorem waiting_accept_offer (h : slot ∉ s.waiting) :
    ((s.offer slot).accept slot).waiting = s.waiting := by
  rw [offer_of_not_mem h]
  show (s.waiting ++ [slot]).erase slot = s.waiting
  rw [List.erase_append_right _ h, List.erase_cons_head, List.append_nil]

/-! ## Nothing is lost -/

/-- Every frame that was offered is accepted, or it waits. -/
def Whole (s : Standing) : Prop := s.offered.Perm (s.accepted ++ s.waiting)

/-- A frame that is offered waits at first. -/
theorem Whole.offer (h : s.Whole) (slot : Nat) : (s.offer slot).Whole := by
  by_cases hslot : slot ∈ s.waiting
  · rw [offer_of_mem hslot]
    exact h
  · rw [offer_of_not_mem hslot]
    unfold Whole
    rw [← List.append_assoc]
    exact h.append_right [slot]

/-- A frame that waited passes to those that were accepted. -/
theorem Whole.accept (h : s.Whole) (hslot : slot ∈ s.waiting) : (s.accept slot).Whole := by
  have hfirst : (s.accepted ++ s.waiting).Perm (s.accepted ++ slot :: s.waiting.erase slot) :=
    (List.perm_cons_erase hslot).append_left s.accepted
  have hshift : (s.accepted ++ slot :: s.waiting.erase slot) =
      s.accepted ++ [slot] ++ s.waiting.erase slot := by simp
  exact h.trans (hshift ▸ hfirst)

/-! ## Straight on -/

/-- What was accepted is a first part of what was offered, and the rest waits. -/
def Straight (s : Standing) : Prop := s.offered = s.accepted ++ s.waiting

/-- A new frame is the last one to wait. -/
theorem Straight.offer (h : s.Straight) (slot : Nat) : (s.offer slot).Straight := by
  by_cases hslot : slot ∈ s.waiting
  · rw [offer_of_mem hslot]
    exact h
  · rw [offer_of_not_mem hslot]
    show s.offered ++ [slot] = s.accepted ++ (s.waiting ++ [slot])
    rw [h, List.append_assoc]

/-- Accepting the first that waits keeps the order. -/
theorem Straight.accept (h : s.Straight) (hnext : s.waiting.head? = some slot) :
    (s.accept slot).Straight := by
  obtain ⟨rest, hwaiting⟩ := List.head?_eq_some_iff.mp hnext
  show s.offered = s.accepted ++ [slot] ++ s.waiting.erase slot
  rw [h, hwaiting, List.erase_cons_head, List.append_assoc]
  rfl

/-- After frames that were accepted as they were offered, another frame was accepted than was
offered next. -/
def Crossed (s : Standing) : Prop :=
  ∃ common first slot offered accepted, s.offered = common ++ first :: offered ∧
    s.accepted = common ++ slot :: accepted ∧ first ≠ slot

/-- What has crossed stays so, whatever is offered and accepted later. -/
theorem Crossed.mono {s' : Standing} (h : s.Crossed) (hoffered : s.offered <+: s'.offered)
    (haccepted : s.accepted <+: s'.accepted) : s'.Crossed := by
  obtain ⟨common, first, slot, offered, accepted, hfirst, hslot, hne⟩ := h
  obtain ⟨offered', hoffered⟩ := hoffered
  obtain ⟨accepted', haccepted⟩ := haccepted
  refine ⟨common, first, slot, offered ++ offered', accepted ++ accepted', ?_, ?_, hne⟩
  · rw [← hoffered, hfirst, List.append_assoc, List.cons_append]
  · rw [← haccepted, hslot, List.append_assoc, List.cons_append]

/-- After a crossing the accepted frames are no first part of the offered ones. -/
theorem Crossed.out_of_order (h : s.Crossed) : ¬ s.accepted <+: s.offered := by
  obtain ⟨common, first, slot, offered, accepted, hfirst, hslot, hne⟩ := h
  rintro ⟨more, hmore⟩
  rw [hfirst, hslot, List.append_assoc] at hmore
  obtain ⟨hsame, -⟩ := List.cons.inj (List.append_cancel_left hmore)
  exact hne hsame.symm

/-- A frame that overtakes another takes its place. -/
theorem Straight.overtake (h : s.Straight) (hmem : slot ∈ s.waiting)
    (hnext : s.waiting.head? ≠ some slot) : (s.accept slot).Crossed := by
  obtain ⟨first, rest, hwaiting⟩ := List.exists_cons_of_ne_nil (List.ne_nil_of_mem hmem)
  refine ⟨s.accepted, first, slot, rest, [], ?_, rfl, ?_⟩
  · show s.offered = s.accepted ++ first :: rest
    rw [h, hwaiting]
  · rintro rfl
    rw [hwaiting] at hnext
    exact hnext rfl

end Standing

/-- No frame is lost, by induction on the record. -/
theorem standing_whole (calls : List DeviceCall) : (standing calls).Whole := by
  induction calls with
  | nil => exact List.Perm.refl []
  | cons c calls ih =>
    rw [standing_cons]
    unfold Standing.note
    split
    · exact (ih.offer _).accept (Standing.mem_waiting_offer _ _)
    · exact ih.offer _
    · exact ih

/-- The last call is looked at where the calls before it have led. -/
theorem inTurn_cons {c : DeviceCall} {calls : List DeviceCall} : InTurn (c :: calls) ↔
    InTurn calls ∧ ∀ serial slot, c = .decoder .video serial (.renderOutput slot) none →
      (standing calls).Next slot := by
  constructor
  · intro h
    constructor
    · rintro after serial slot before rfl
      exact h (c :: after) serial slot before rfl
    · rintro serial slot rfl
      exact h [] serial slot calls rfl
  · rintro ⟨hcalls, hc⟩ after serial slot before heq
    cases after with
    | nil => -- the call looked at is the last one
      obtain ⟨rfl, rfl⟩ := List.cons.inj heq
      exact hc serial slot rfl
    | cons c' after => -- it is an earlier one, and what came after it does not matter
      obtain ⟨-, rfl⟩ := List.cons.inj heq
      exact hcalls after serial slot before rfl

/-- While every frame is accepted in turn the order is kept. -/
theorem InTurn.straight {calls : List DeviceCall} (h : InTurn calls) :
    (standing calls).Straight := by
  -- by induction on the calls: the last one is in turn where the others have led
  induction calls with
  | nil => rfl
  | cons c calls ih =>
    obtain ⟨hcalls, hc⟩ := inTurn_cons.mp h
    have hstraight := ih hcalls
    rw [standing_cons]
    unfold Standing.note
    split
    · next serial slot => exact (hstraight.offer slot).accept (hc serial slot rfl)
    · next slot _ => exact hstraight.offer slot
    · exact hstraight

/-- The first frame that is accepted out of turn crosses another one, and no later call mends
that. -/
theorem crossed_of_not_inTurn {calls : List DeviceCall} (h : ¬ InTurn calls) :
    (standing calls).Crossed := by
  induction calls with
  | nil =>
    refine absurd ?_ h
    intro after serial slot before heq
    simp at heq
  | cons c calls ih =>
    rw [standing_cons]
    by_cases hcalls : InTurn calls
    · -- the last call is the first that is out of turn
      rw [inTurn_cons] at h
      simp only [hcalls, true_and, not_forall] at h
      obtain ⟨serial, slot, rfl, hnext⟩ := h
      exact (hcalls.straight.offer slot).overtake (Standing.mem_waiting_offer _ _) hnext
    -- an earlier one was: offers and acceptances are only added, so the crossing stays
    · have hcrossed := ih hcalls
      unfold Standing.note
      split
      · next slot =>
        refine hcrossed.mono (Standing.offered_prefix_offer _ slot) ?_
        show (standing calls).accepted <+: ((standing calls).offer slot).accepted ++ [slot]
        rw [Standing.accepted_offer]
        exact List.prefix_append _ _
      · next slot _ =>
        refine hcrossed.mono (Standing.offered_prefix_offer _ slot) ?_
        exact Standing.accepted_offer _ slot ▸ List.prefix_rfl
      · exact hcrossed

/-- The decoder accepts frames in the order of their first offers exactly if each is accepted in
turn. -/
theorem accepted_prefix_iff (calls : List DeviceCall) :
    (standing calls).accepted <+: (standing calls).offered ↔ InTurn calls := by
  constructor
  · intro hprefix
    by_contra hnot
    exact (crossed_of_not_inTurn hnot).out_of_order hprefix
  · intro h
    rw [h.straight]
    exact List.prefix_append _ _

/-- A decoder that refuses no frame accepts each when it is offered. -/
theorem accepted_of_never_refused {calls : List DeviceCall}
    (h : ∀ serial slot e, .decoder .video serial (.renderOutput slot) (some e) ∉ calls) :
    (standing calls).accepted = (standing calls).offered ∧ (standing calls).waiting = [] := by
  induction calls with
  | nil => exact ⟨rfl, rfl⟩
  | cons c calls ih =>
    obtain ⟨haccepted, hnone⟩ := ih fun serial slot e hmem =>
      h serial slot e (List.mem_cons_of_mem _ hmem)
    rw [standing_cons]
    unfold Standing.note
    split
    · next slot =>
      -- nobody waits, so the frame that is offered is new and is accepted at once
      have hfresh : slot ∉ (standing calls).waiting := by
        rw [hnone]
        exact List.not_mem_nil
      refine ⟨?_, ?_⟩
      · show ((standing calls).offer slot).accepted ++ [slot] =
          ((standing calls).offer slot).offered
        rw [Standing.offer_of_not_mem hfresh, haccepted]
      · rw [Standing.waiting_accept_offer hfresh, hnone]
    · next serial slot e => exact absurd List.mem_cons_self (h serial slot e)
    · exact ⟨haccepted, hnone⟩

end Playout
