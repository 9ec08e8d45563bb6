import Mathlib.Data.List.Nodup
import Playout.Proofs.Reorder.Turns

/-!
# Units leave in order, each of them once

A `Run` is a reorder buffer together with a record of what was put in and of what every turn
brought. `run grace calls` starts with an empty buffer and makes the calls in their order,
with any units, any clock readings and in any mixture.

What carries the proof is `InOrder`: the units that came while they were ahead of delivery are,
one for one, those that were handed out and those that wait ahead of delivery,

    r.fresh.Perm (r.delivered ++ r.buffer.pending.filter r.buffer.ahead)

so that none of them is dropped as stale, none is passed over, and none is handed out twice.
-/

namespace Playout.ReorderBuffer

/-! ## Runs -/

/-- One call of a run. -/
inductive Call where
  | insert (u : MediaUnit)
  | next (now : Int)
deriving DecidableEq, Inhabited, Repr

/-- The numbers that a turn gives up. -/
def Turn.lost? (t : Turn) : Option (SeqNumber × SeqNumber) :=
  match t.event with
  | some (.lost first last) => some (first, last)
  | _ => none

/-- A buffer and what has happened to it. -/
structure Run where
  buffer : ReorderBuffer
  /-- Units taken in, in the order of their coming -/
  accepted : List MediaUnit := []
  /-- Those of them that were ahead of delivery when they came -/
  fresh : List MediaUnit := []
  /-- What the calls of `next` brought -/
  turns : List Turn := []
deriving DecidableEq, Inhabited, Repr

namespace Run

/-- Everything handed out so far, the oldest first. -/
def deliveries (r : Run) : List Delivery := r.turns.filterMap (·.delivery)

/-- The units handed out so far. -/
def delivered (r : Run) : List MediaUnit := r.deliveries.map (·.unit)

/-- The ranges given up so far. -/
def losses (r : Run) : List (SeqNumber × SeqNumber) := r.turns.filterMap (·.lost?)

/-- The run with one more turn. -/
def turn (r : Run) (now : Int) : Run :=
  { r with
    buffer := (r.buffer.next now).2
    turns := r.turns ++ [(r.buffer.next now).1] }

/-- The run with a unit offered to the buffer. -/
def offer (r : Run) (u : MediaUnit) : Run :=
  if (r.buffer.insert u).1 then
    { r with
      buffer := (r.buffer.insert u).2
      accepted := r.accepted ++ [u]
      fresh := if r.buffer.ahead u then r.fresh ++ [u] else r.fresh }
  else { r with buffer := (r.buffer.insert u).2 }

/-- The run with one more call. -/
def perform (r : Run) : Call → Run
  | .insert u => r.offer u
  | .next now => r.turn now

@[simp] theorem offer_buffer (r : Run) (u : MediaUnit) :
    (r.offer u).buffer = (r.buffer.insert u).2 := by
  unfold offer
  split <;> rfl

@[simp] theorem offer_turns (r : Run) (u : MediaUnit) : (r.offer u).turns = r.turns := by
  unfold offer
  split <;> rfl

@[simp] theorem deliveries_turn (r : Run) (now : Int) :
    (r.turn now).deliveries = r.deliveries ++ (r.buffer.next now).1.delivery.toList := by
  simp only [turn, deliveries, List.filterMap_append]
  cases h : (r.buffer.next now).1.delivery <;> simp [h]

end Run

/-- Make calls, one after the other, on an empty buffer. -/
def run (grace : Int) (calls : List Call) : Run :=
  calls.foldl Run.perform { buffer := { grace } }

/-- The last call of a run is made on what the calls before it have left. -/
theorem run_concat (grace : Int) (calls : List Call) (c : Call) :
    run grace (calls ++ [c]) = (run grace calls).perform c := by
  unfold run
  rw [List.foldl_append, List.foldl_cons, List.foldl_nil]

/-- What every call keeps holds after every run that starts with it. -/
theorem Run.foldl_induction {motive : Run → Prop} (calls : List Call) {r : Run} (h : motive r)
    (offer : ∀ r u, motive r → motive (r.offer u))
    (turn : ∀ r now, motive r → motive (r.turn now)) : motive (calls.foldl Run.perform r) := by
  induction calls generalizing r with
  | nil => exact h
  | cons c calls ih =>
    cases c with
    | insert u => exact ih (offer r u h)
    | next now => exact ih (turn r now h)

/-! ## What a turn does to the units -/

/-- A turn hands out the front of what is ahead of delivery, or nothing at all; what it gives up
lies between what was delivered before and what is delivered now. -/
theorem Outcome.handsOut_or_waits {b b' : ReorderBuffer} {now : Int} {t : Turn}
    (o : Outcome b now t b') :
    (t.delivery = none ∧ t.lost? = none ∧ b'.pending = b.dropStale.pending ∧
        b'.lastDelivered = b.lastDelivered) ∨
      ∃ u rest start, t.delivery = some ⟨u, start⟩ ∧ b.dropStale.pending = u :: rest ∧
        b'.pending = rest ∧ b'.lastDelivered = some u.seq ∧
        ∀ first last, t.lost? = some (first, last) →
          ∃ before, b.lastDelivered = some before ∧ before < first ∧ last < u.seq := by
  cases o with
  | idle hp => exact .inl ⟨rfl, rfl, rfl, dropStale_lastDelivered b⟩
  | opens hp hl hgap ho => exact .inl ⟨rfl, rfl, rfl, dropStale_lastDelivered b⟩
  | asks hp hl hgap ho hearly hr => exact .inl ⟨rfl, rfl, rfl, dropStale_lastDelivered b⟩
  | waits hp hl hgap ho hearly hr => exact .inl ⟨rfl, rfl, rfl, dropStale_lastDelivered b⟩
  | first hp hl => exact .inr ⟨_, _, _, rfl, hp, rfl, rfl, fun _ _ h => by cases h⟩
  | inOrder hp hl hn => exact .inr ⟨_, _, _, rfl, hp, rfl, rfl, fun _ _ h => by cases h⟩
  | @skips u rest last opened hp hl hgap ho hlate =>
    -- only a skip gives numbers up: those between `last` and `u`, neither of them included
    refine .inr ⟨_, _, _, rfl, hp, rfl, rfl, fun f l h => ?_⟩
    cases h
    have hlt := ahead_of_dropStale hp hl
    refine ⟨last, hl, ?_, ?_⟩
    · rw [SeqNumber.lt_iff, SeqNumber.toNat_next hlt]
      omega
    · rw [SeqNumber.lt_iff, SeqNumber.toNat_previous hlt]
      omega

/-! ## The invariant -/

/-- What holds of a run: units wait in order, and were handed out in order. -/
structure InOrder (r : Run) : Prop where
  sorted : r.buffer.pending.Pairwise fun u v => u.seq < v.seq
  increasing : r.delivered.Pairwise fun u v => u.seq < v.seq
  reached : r.delivered.getLast?.map (·.seq) = r.buffer.lastDelivered
  pending_accepted : ∀ u ∈ r.buffer.pending, u ∈ r.accepted
  delivered_accepted : ∀ u ∈ r.delivered, u ∈ r.accepted
  /-- The units that came in time are delivered, or wait ahead of delivery. -/
  accounted : r.fresh.Perm (r.delivered ++ r.buffer.pending.filter r.buffer.ahead)
  /-- Delivery has passed whatever was given up. -/
  passed : ∀ l ∈ r.losses, ∃ last, r.buffer.lastDelivered = some last ∧ l.2 < last
  /-- No unit that came in time was given up. -/
  kept : ∀ u ∈ r.fresh, ∀ l ∈ r.losses, ¬ (l.1 ≤ u.seq ∧ u.seq ≤ l.2)

namespace InOrder

variable {r : Run}

theorem init (grace : Int) : InOrder { buffer := { grace } } where
  sorted := .nil
  increasing := .nil
  reached := rfl
  pending_accepted := fun _ h => nomatch h
  delivered_accepted := fun _ h => nomatch h
  accounted := .nil
  passed := fun _ h => nomatch h
  kept := fun _ h => nomatch h

/-- Nothing that was handed out is ahead of delivery. -/
theorem not_ahead_of_delivered (h : InOrder r) {u : MediaUnit} (hu : u ∈ r.delivered) :
    r.buffer.ahead u = false := by
  obtain ⟨before, v, hsplit⟩ : ∃ before v, r.delivered = before ++ [v] :=
    ⟨_, _, (List.dropLast_append_getLast (List.ne_nil_of_mem hu)).symm⟩
  have hlast : r.buffer.lastDelivered = some v.seq := by
    rw [← h.reached, hsplit]
    simp
  rw [← Bool.not_eq_true, ahead_iff hlast]
  intro hlt
  -- `v` is where delivery stands, and no unit handed out lies beyond it
  have hinc := h.increasing
  rw [hsplit] at hu hinc
  rcases List.mem_append.mp hu with hu | hu
  · exact SeqNumber.lt_irrefl _
      (SeqNumber.lt_trans hlt ((List.pairwise_append.mp hinc).2.2 u hu v (by simp)))
  · rw [List.mem_singleton.mp hu] at hlt
    exact SeqNumber.lt_irrefl _ hlt

/-- Everything handed out lies before what is ahead of delivery. -/
theorem lt_of_ahead (h : InOrder r) {u v : MediaUnit} (hv : v ∈ r.delivered)
    (hu : r.buffer.ahead u = true) : v.seq < u.seq := by
  have hnot := h.not_ahead_of_delivered hv
  -- as nothing handed out is ahead, the last delivered number lies between the two
  cases hlast : r.buffer.lastDelivered with
  | none =>
    rw [ahead_of_none hlast] at hnot
    cases hnot
  | some last =>
    rw [ahead_iff hlast, SeqNumber.lt_iff] at hu
    rw [← Bool.not_eq_true, ahead_iff hlast, SeqNumber.lt_iff] at hnot
    rw [SeqNumber.lt_iff]
    omega

/-- A unit that is offered keeps the order, whether it is refused, is new or comes too late. -/
theorem offer (h : InOrder r) (u : MediaUnit) : InOrder (r.offer u) := by
  unfold Run.offer insert
  cases hp : place u r.buffer.pending with
  -- a duplicate changes a counter only
  | none => exact { h with }
  | some units =>
    have hperm := place_perm hp
    refine
      { sorted := place_pairwise h.sorted hp
        increasing := h.increasing
        reached := h.reached
        pending_accepted := fun v hv => ?_
        delivered_accepted := fun v hv => List.mem_append_left _ (h.delivered_accepted v hv)
        accounted := ?_
        passed := h.passed
        kept := ?_ }
    · rcases List.mem_cons.mp (hperm.mem_iff.mp hv) with rfl | hv
      · exact List.mem_append_right _ List.mem_cons_self
      · exact List.mem_append_left _ (h.pending_accepted v hv)
    · -- `u` joins both sides, or neither
      show (if r.buffer.ahead u then r.fresh ++ [u] else r.fresh).Perm
        (r.delivered ++ units.filter r.buffer.ahead)
      have hfilter := hperm.filter r.buffer.ahead
      split
      · next ha =>
        rw [List.filter_cons_of_pos ha] at hfilter
        calc (r.fresh ++ [u]).Perm (u :: r.fresh) := List.perm_append_singleton u r.fresh
          _ |>.Perm (u :: (r.delivered ++ r.buffer.pending.filter r.buffer.ahead)) :=
            h.accounted.cons u
          _ |>.Perm (r.delivered ++ u :: r.buffer.pending.filter r.buffer.ahead) :=
            List.perm_middle.symm
          _ |>.Perm (r.delivered ++ units.filter r.buffer.ahead) := hfilter.symm.append_left _
      · next ha =>
        rw [List.filter_cons_of_neg ha] at hfilter
        exact h.accounted.trans (hfilter.symm.append_left _)
    · show ∀ v ∈ (if r.buffer.ahead u then r.fresh ++ [u] else r.fresh), _
      intro v hv l hl
      split at hv
      · next ha =>
        rcases List.mem_append.mp hv with hv | hv
        · exact h.kept v hv l hl
        · -- the new unit is ahead of delivery, which has passed the range
          rw [List.mem_singleton.mp hv]
          obtain ⟨last, hlast, hpast⟩ := h.passed l hl
          have hu := (ahead_iff hlast u).mp ha
          rw [SeqNumber.lt_iff] at hu hpast
          rw [SeqNumber.le_iff, SeqNumber.le_iff]
          omega
      · exact h.kept v hv l hl

/-- A turn that hands nothing out keeps the order. -/
theorem keep (h : InOrder r) {b' : ReorderBuffer} {t : Turn} (hd : t.delivery = none)
    (ht : t.lost? = none) (hp : b'.pending = r.buffer.pending.filter r.buffer.ahead)
    (hl : b'.lastDelivered = r.buffer.lastDelivered) :
    InOrder { r with buffer := b', turns := r.turns ++ [t] } := by
  have hdel : { r with buffer := b', turns := r.turns ++ [t] : Run }.delivered = r.delivered := by
    simp [Run.delivered, Run.deliveries, hd]
  have hloss : { r with buffer := b', turns := r.turns ++ [t] : Run }.losses = r.losses := by
    simp [Run.losses, ht]
  refine
    { sorted := ?_, increasing := ?_, reached := ?_, pending_accepted := ?_,
      delivered_accepted := ?_, accounted := ?_, passed := ?_, kept := ?_ }
  · rw [hp]
    exact h.sorted.filter _
  · rw [hdel]
    exact h.increasing
  · rw [hdel, hl]
    exact h.reached
  · rw [hp]
    exact fun u hu => h.pending_accepted u (List.mem_of_mem_filter hu)
  · rw [hdel]
    exact h.delivered_accepted
  -- only stale units were dropped, and they do not count on the right side
  · rw [hdel, hp, ahead_congr hl, List.filter_filter]
    simpa using h.accounted
  · rw [hloss, hl]
    exact h.passed
  · rw [hloss]
    exact h.kept

/-- A turn that hands the front unit out keeps the order. -/
theorem handOut (h : InOrder r) {b' : ReorderBuffer} {t : Turn} {u : MediaUnit}
    {rest : List MediaUnit} {start : Bool} (hd : t.delivery = some ⟨u, start⟩)
    (hfront : r.buffer.pending.filter r.buffer.ahead = u :: rest)
    (hp : b'.pending = rest) (hl : b'.lastDelivered = some u.seq)
    (ht : ∀ first last, t.lost? = some (first, last) →
      ∃ before, r.buffer.lastDelivered = some before ∧ before < first ∧ last < u.seq) :
    InOrder { r with buffer := b', turns := r.turns ++ [t] } := by
  have hdel : { r with buffer := b', turns := r.turns ++ [t] : Run }.delivered =
      r.delivered ++ [u] := by
    simp [Run.delivered, Run.deliveries, hd]
  have hloss : { r with buffer := b', turns := r.turns ++ [t] : Run }.losses =
      r.losses ++ t.lost?.toList := by
    cases hlost : t.lost? <;> simp [Run.losses, hlost]
  have hsorted : (u :: rest).Pairwise fun v w => v.seq < w.seq := hfront ▸ h.sorted.filter _
  obtain ⟨hu, hrest⟩ := List.pairwise_cons.mp hsorted
  have hmem : u ∈ r.buffer.pending ∧ r.buffer.ahead u = true :=
    List.mem_filter.mp (hfront ▸ List.mem_cons_self)
  have hpassed : ∀ last, r.buffer.lastDelivered = some last → last < u.seq :=
    fun last hlast => (ahead_iff hlast u).mp hmem.2
  -- delivery has moved to `u`, and all that waits behind it is ahead of it
  have hahead : b'.pending.filter b'.ahead = rest := by
    rw [hp, List.filter_eq_self]
    exact fun v hv => (ahead_iff hl v).mpr (hu v hv)
  have hperm : r.fresh.Perm (r.delivered ++ u :: rest) := hfront ▸ h.accounted
  refine
    { sorted := ?_, increasing := ?_, reached := ?_, pending_accepted := ?_,
      delivered_accepted := ?_, accounted := ?_, passed := ?_, kept := ?_ }
  · rw [hp]
    exact hrest
  · rw [hdel]
    exact List.pairwise_append.mpr ⟨h.increasing, List.pairwise_singleton _ _,
      fun v hv w hw => List.mem_singleton.mp hw ▸ h.lt_of_ahead hv hmem.2⟩
  · rw [hdel, hl]
    simp
  · rw [hp]
    intro v hv
    have : v ∈ r.buffer.pending.filter r.buffer.ahead := hfront ▸ List.mem_cons_of_mem u hv
    exact h.pending_accepted v (List.mem_of_mem_filter this)
  · rw [hdel]
    intro v hv
    rcases List.mem_append.mp hv with hv | hv
    · exact h.delivered_accepted v hv
    · exact List.mem_singleton.mp hv ▸ h.pending_accepted u hmem.1
  · -- `u` moves from the units that wait to those handed out
    rw [hdel, hahead, List.append_assoc]
    exact hperm
  · rw [hloss, hl]
    intro l hlost
    refine ⟨u.seq, rfl, ?_⟩
    -- the range was given up before, or in this turn
    rcases List.mem_append.mp hlost with hlost | hlost
    · obtain ⟨last, hlast, hpast⟩ := h.passed l hlost
      exact SeqNumber.lt_trans hpast (hpassed last hlast)
    · obtain ⟨_, _, _, hpast⟩ := ht l.1 l.2 (Option.mem_toList.mp hlost)
      exact hpast
  · rw [hloss]
    intro v hv l hlost
    rcases List.mem_append.mp hlost with hlost | hlost
    · exact h.kept v hv l hlost
    · -- a unit that came in time is handed out by now, or waits at or behind `u`
      obtain ⟨before, hlast, hfirst, hpast⟩ := ht l.1 l.2 (Option.mem_toList.mp hlost)
      rw [SeqNumber.lt_iff] at hfirst hpast
      rw [SeqNumber.le_iff, SeqNumber.le_iff]
      rcases List.mem_append.mp (hperm.mem_iff.mp hv) with hv | hv
      · have hnot := h.not_ahead_of_delivered hv
        rw [← Bool.not_eq_true, ahead_iff hlast, SeqNumber.lt_iff] at hnot
        omega
      · rcases List.mem_cons.mp hv with rfl | hv
        · omega
        · have := hu v hv
          rw [SeqNumber.lt_iff] at this
          omega

/-- A turn keeps the order: it hands the front unit out, or nothing. -/
theorem turn (h : InOrder r) (now : Int) : InOrder (r.turn now) := by
  have hstale := dropStale_pending h.sorted
  rcases (next_outcome r.buffer now).handsOut_or_waits with
    ⟨hd, ht, hp, hl⟩ | ⟨u, rest, start, hd, hfront, hp, hl, ht⟩
  · exact h.keep hd ht (hp.trans hstale) hl
  · exact h.handOut hd (hstale ▸ hfront) hp hl ht

/-- Every run is in order, by induction on its calls. -/
theorem run (grace : Int) (calls : List Call) : InOrder (run grace calls) :=
  Run.foldl_induction calls (init grace) (fun _ u h => h.offer u) fun _ now h => h.turn now

/-- No unit is handed out twice, since the numbers handed out increase. -/
theorem delivered_nodup (h : InOrder r) : r.delivered.Nodup :=
  h.increasing.imp fun {u v} hlt (heq : u = v) => SeqNumber.lt_irrefl _ (heq ▸ hlt)

/-- A unit that came in time waits ahead of delivery, or has been handed out once. -/
theorem waits_or_delivered (h : InOrder r) {u : MediaUnit} (hu : u ∈ r.fresh) :
    (u ∈ r.buffer.pending ∧ r.buffer.ahead u = true ∧ r.delivered.count u = 0) ∨
      (r.buffer.ahead u = false ∧ r.delivered.count u = 1) := by
  rcases List.mem_append.mp (h.accounted.mem_iff.mp hu) with hu | hu
  · exact .inr ⟨h.not_ahead_of_delivered hu, List.count_eq_one_of_mem h.delivered_nodup hu⟩
  · obtain ⟨hu, ha⟩ := List.mem_filter.mp hu
    refine .inl ⟨hu, ha, List.count_eq_zero.mpr fun hd => ?_⟩
    rw [h.not_ahead_of_delivered hd] at ha
    cases ha

end InOrder

/-! ## In order, and each of them once -/

/-- **Units leave in order, each of them once.** Whatever is put in and whenever units are asked
for: the numbers handed out increase; every unit handed out was taken in; and the units that came
while they were ahead of delivery are, one for one, those handed out and those that still wait ahead
of it. So each of these waits and was not handed out, or was handed out exactly once; and no range
that was given up contains its number. -/
theorem run_delivers_in_order_once (grace : Int) (calls : List Call) :
    let r := run grace calls
    r.deliveries.Pairwise (fun d e => d.unit.seq < e.unit.seq) ∧
      (∀ d ∈ r.deliveries, d.unit ∈ r.accepted) ∧
      r.fresh.Perm (r.delivered ++ r.buffer.pending.filter r.buffer.ahead) ∧
      ∀ u ∈ r.fresh,
        ((u ∈ r.buffer.pending ∧ r.buffer.ahead u = true ∧ r.delivered.count u = 0) ∨
          (r.buffer.ahead u = false ∧ r.delivered.count u = 1)) ∧
        ∀ l ∈ r.losses, ¬ (l.1 ≤ u.seq ∧ u.seq ≤ l.2) := by
  intro r
  have h : InOrder r := .run grace calls
  -- `InOrder` speaks of the units, the statement of the deliveries that carry them
  have hinc := h.increasing
  rw [Run.delivered, List.pairwise_map] at hinc
  refine ⟨hinc, fun d hd => ?_, h.accounted, fun u hu => ?_⟩
  · exact h.delivered_accepted _ (List.mem_map_of_mem hd)
  · exact ⟨h.waits_or_delivered hu, h.kept u hu⟩

end Playout.ReorderBuffer
