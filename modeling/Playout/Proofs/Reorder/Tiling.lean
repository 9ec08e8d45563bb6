import Mathlib.Data.List.Pairwise
import Playout.Proofs.Reorder.Delivery

/-!
# No number is left out

Everything that a reorder buffer brings is a row of *stretches*: single numbers that were
handed out, and ranges that were given up. `Tiles lo hi ss` says that the stretches `ss` stand
one behind the other from `lo` up to but not including `hi`. The stretches of a run tile the
interval from the first number handed out to the last one,

    Tiles first (last + 1) r.stretches

and everything else follows from that: ranges are not empty, increase and do not overlap, no
number in them is handed out, and the two counters add up to the length of the interval.
-/

namespace Playout.ReorderBuffer

/-! ## Stretches -/

/-- What a turn brings, in terms of numbers. -/
inductive Stretch where
  | delivered (n : SeqNumber)
  | lost (first last : SeqNumber)
deriving DecidableEq, Inhabited, Repr

namespace Stretch

def first : Stretch → Nat
  | delivered n => n.raw.toNat
  | lost first _ => first.raw.toNat

def last : Stretch → Nat
  | delivered n => n.raw.toNat
  | lost _ last => last.raw.toNat

/-- The range, if it was given up. -/
def lost? : Stretch → Option (SeqNumber × SeqNumber)
  | delivered _ => none
  | lost first last => some (first, last)

/-- The number, if it was handed out. -/
def delivered? : Stretch → Option SeqNumber
  | delivered n => some n
  | lost _ _ => none

end Stretch

/-- The stretches of a turn: what it gives up comes before what it hands out. -/
def Turn.stretches (t : Turn) : List Stretch :=
  (t.lost?.map fun l => .lost l.1 l.2).toList ++
    (t.delivery.map fun d => .delivered d.unit.seq).toList

/-- The stretches of a run, in the order of its turns. -/
def Run.stretches (r : Run) : List Stretch := r.turns.flatMap Turn.stretches

/-- A turn puts its stretches behind those of the run. -/
@[simp] theorem Run.stretches_turn (r : Run) (now : Int) :
    (r.turn now).stretches = r.stretches ++ (r.buffer.next now).1.stretches := by
  simp [Run.stretches, Run.turn]

/-- The range among the stretches of a turn is the one it gives up. -/
theorem Turn.filterMap_lost (t : Turn) :
    t.stretches.filterMap Stretch.lost? = t.lost?.toList := by
  unfold Turn.stretches
  cases t.lost? <;> cases t.delivery <;> rfl

/-- The number among the stretches of a turn is the one it hands out. -/
theorem Turn.filterMap_delivered (t : Turn) :
    t.stretches.filterMap Stretch.delivered? = (t.delivery.map (·.unit.seq)).toList := by
  unfold Turn.stretches
  cases t.lost? <;> cases t.delivery <;> rfl

/-- The ranges among the stretches are the ranges given up. -/
theorem Run.filterMap_lost (r : Run) : r.stretches.filterMap Stretch.lost? = r.losses := by
  unfold Run.stretches Run.losses
  induction r.turns with
  | nil => rfl
  | cons t turns ih =>
    rw [List.flatMap_cons, List.filterMap_append, ih, Turn.filterMap_lost]
    cases h : t.lost? <;> simp [h]

/-- The numbers among the stretches are the numbers handed out. -/
theorem Run.filterMap_delivered (r : Run) :
    r.stretches.filterMap Stretch.delivered? = r.deliveries.map (·.unit.seq) := by
  unfold Run.stretches Run.deliveries
  induction r.turns with
  | nil => rfl
  | cons t turns ih =>
    rw [List.flatMap_cons, List.filterMap_append, ih, Turn.filterMap_delivered]
    cases h : t.delivery <;> simp [h]

theorem Run.lost_mem_stretches {r : Run} {l : SeqNumber × SeqNumber} :
    .lost l.1 l.2 ∈ r.stretches ↔ l ∈ r.losses := by
  rw [← r.filterMap_lost, List.mem_filterMap]
  constructor
  · exact fun h => ⟨_, h, rfl⟩
  · rintro ⟨s, hs, heq⟩
    cases s with
    | delivered n => cases heq
    | lost first last => cases heq; exact hs

theorem Run.delivered_mem_stretches {r : Run} {n : SeqNumber} :
    .delivered n ∈ r.stretches ↔ ∃ d ∈ r.deliveries, d.unit.seq = n := by
  rw [← List.mem_map, ← r.filterMap_delivered, List.mem_filterMap]
  constructor
  · exact fun h => ⟨_, h, rfl⟩
  · rintro ⟨s, hs, heq⟩
    cases s with
    | delivered n => cases heq; exact hs
    | lost first last => cases heq

/-! ## Tilings -/

/-- The stretches stand one behind the other, from `lo` up to but not including `hi`. -/
def Tiles (lo hi : Nat) : List Stretch → Prop
  | [] => lo = hi
  | s :: rest => s.first = lo ∧ s.first ≤ s.last ∧ Tiles (s.last + 1) hi rest

namespace Tiles

variable {lo mid hi : Nat} {ss : List Stretch}

/-- Where one tiling ends the next one goes on. -/
theorem append {ts : List Stretch} (h : Tiles lo mid ss) (h' : Tiles mid hi ts) :
    Tiles lo hi (ss ++ ts) := by
  induction ss generalizing lo with
  | nil => exact (show lo = mid from h) ▸ h'
  | cons s rest ih => exact ⟨h.1, h.2.1, ih h.2.2⟩

/-- A tiling does not end before it begins. -/
theorem le (h : Tiles lo hi ss) : lo ≤ hi := by
  induction ss generalizing lo with
  | nil => exact Nat.le_of_eq h
  | cons s rest ih =>
    have := ih h.2.2
    have := h.2.1
    have := h.1
    omega

/-- Exactly the numbers from `lo` to `hi` are covered. -/
theorem covered_iff (h : Tiles lo hi ss) (n : Nat) :
    (lo ≤ n ∧ n < hi) ↔ ∃ s ∈ ss, s.first ≤ n ∧ n ≤ s.last := by
  induction ss generalizing lo with
  | nil =>
    have : lo = hi := h
    -- no stretch covers anything, and there is nothing to cover
    constructor
    · omega
    · rintro ⟨s, hs, _⟩
      cases hs
  | cons s rest ih =>
    obtain ⟨hfirst, hle, hrest⟩ := h
    have hup := hrest.le
    -- `n` is in the stretch in front, or the others cover it
    rw [List.exists_mem_cons_iff, ← ih hrest]
    omega

theorem first_le_last (h : Tiles lo hi ss) : ∀ s ∈ ss, s.first ≤ s.last := by
  induction ss generalizing lo with
  | nil => exact fun _ hs => nomatch hs
  | cons s rest ih =>
    intro t ht
    rcases List.mem_cons.mp ht with rfl | ht
    · exact h.2.1
    · exact ih h.2.2 t ht

/-- The stretches increase and do not overlap. -/
theorem pairwise (h : Tiles lo hi ss) : ss.Pairwise fun s t => s.last < t.first := by
  induction ss generalizing lo with
  | nil => exact .nil
  | cons s rest ih =>
    obtain ⟨_, _, hrest⟩ := h
    refine .cons (fun t ht => ?_) (ih hrest)
    have := (hrest.covered_iff t.first).mpr ⟨t, ht, Nat.le_refl _, hrest.first_le_last t ht⟩
    omega

/-- Different stretches have no number in common. -/
theorem disjoint (h : Tiles lo hi ss) {s t : Stretch} (hs : s ∈ ss) (ht : t ∈ ss)
    (hne : s ≠ t) : s.last < t.first ∨ t.last < s.first := by
  -- `Pairwise` speaks of different members in any order only for a symmetric relation
  have : Std.Symm fun s t : Stretch => s.last < t.first ∨ t.last < s.first := ⟨fun _ _ => Or.symm⟩
  have hsym : ss.Pairwise fun s t => s.last < t.first ∨ t.last < s.first :=
    h.pairwise.imp fun hlt => .inl hlt
  exact hsym.forall hs ht hne

end Tiles

/-! ## The stretches of a turn -/

/-- A turn after the first delivery hands nothing out, or covers what lies between the unit handed
out before and the one handed out now. -/
theorem Outcome.tiles {b b' : ReorderBuffer} {now : Int} {t : Turn} {last : SeqNumber}
    (o : Outcome b now t b') (hl : b.lastDelivered = some last) :
    (t.delivery = none ∧ t.lost? = none ∧ b'.lastDelivered = some last ∧
        b'.counts.delivered = b.counts.delivered ∧ b'.counts.skipped = b.counts.skipped) ∨
      ∃ u, t.delivery = some ⟨u, false⟩ ∧ b'.lastDelivered = some u.seq ∧
        Tiles (last.raw.toNat + 1) (u.seq.raw.toNat + 1) t.stretches ∧
        b'.counts.delivered + b'.counts.skipped + last.raw.toNat =
          b.counts.delivered + b.counts.skipped + u.seq.raw.toNat := by
  cases o with
  -- nothing leaves, and the counters stand still
  | idle | opens | asks | waits => exact .inl ⟨rfl, rfl, by simpa using hl, by simp⟩
  | first hp hnone =>
    rw [hl] at hnone
    cases hnone
  | @inOrder u rest _ hp hl' hn =>
    cases hl.symm.trans hl'
    -- one stretch: `u`, whose number is the next one
    refine .inr ⟨u, rfl, rfl, ⟨hn, Nat.le_refl _, rfl⟩, ?_⟩
    simp only [deliver_delivered, deliver_skipped, dropStale_delivered, dropStale_skipped]
    omega
  | @skips u rest _ opened hp hl' hgap ho hlate =>
    cases hl.symm.trans hl'
    have hlt := ahead_of_dropStale hp hl
    have hnext := SeqNumber.toNat_next hlt
    have hprev := SeqNumber.toNat_previous hlt
    -- the range from `last.next` to the number before `u`, and then `u` alone
    refine .inr ⟨u, rfl, rfl, ⟨hnext, ?_, ?_, Nat.le_refl _, rfl⟩, ?_⟩
    · show last.next.raw.toNat ≤ u.seq.previous.raw.toNat
      omega
    · show u.seq.raw.toNat = u.seq.previous.raw.toNat + 1
      omega
    · simp only [deliver_delivered, deliver_skipped, dropStale_delivered, dropStale_skipped,
        SeqNumber.toNat_sub]
      omega

/-- Before the first delivery a turn brings nothing, or the first unit alone. -/
theorem Outcome.starts {b b' : ReorderBuffer} {now : Int} {t : Turn}
    (o : Outcome b now t b') (hl : b.lastDelivered = none) :
    t.event = none ∧ b'.counts.skipped = b.counts.skipped ∧
      ((t.delivery = none ∧ b'.lastDelivered = none ∧
          b'.counts.delivered = b.counts.delivered) ∨
        ∃ u, t.delivery = some ⟨u, true⟩ ∧ b'.lastDelivered = some u.seq ∧
          b'.counts.delivered = b.counts.delivered + 1) := by
  cases o with
  | idle => exact ⟨rfl, by simp, .inl ⟨rfl, by simpa using hl, by simp⟩⟩
  | @first u rest hp hnone => exact ⟨rfl, by simp, .inr ⟨u, rfl, rfl, by simp⟩⟩
  | inOrder hp hl' | opens hp hl' | asks hp hl' | waits hp hl' | skips hp hl' =>
    rw [hl] at hl'
    cases hl'

/-! ## The invariant -/

/-- The stretches of a run tile the interval from the first number handed out to the last one, and
the counters add up to its length. Before the first delivery there is nothing at all. -/
inductive Run.Tiled (r : Run) : Prop
  | silent (deliveries_eq : r.deliveries = []) (reached : r.buffer.lastDelivered = none)
      (quiet : ∀ t ∈ r.turns, t.event = none) (delivered_eq : r.buffer.counts.delivered = 0)
      (skipped_eq : r.buffer.counts.skipped = 0)
  | started {d : Delivery} {ds : List Delivery} {last : SeqNumber}
      (deliveries_eq : r.deliveries = d :: ds) (reached : r.buffer.lastDelivered = some last)
      (start : d.discontinuity = true) (goesOn : ∀ e ∈ ds, e.discontinuity = false)
      (tiles : Tiles d.unit.seq.raw.toNat (last.raw.toNat + 1) r.stretches)
      (count_eq : r.buffer.counts.delivered + r.buffer.counts.skipped + d.unit.seq.raw.toNat =
        last.raw.toNat + 1)

namespace Run.Tiled

variable {r : Run}

/-- An empty buffer has brought nothing. -/
theorem init (grace : Int) : Tiled { buffer := { grace } } :=
  .silent rfl rfl (fun _ h => nomatch h) rfl rfl

/-- A unit that is offered changes nothing that was handed out or counted for it. -/
theorem offer (h : r.Tiled) (u : MediaUnit) : (r.offer u).Tiled := by
  have hturns : (r.offer u).turns = r.turns := by
    unfold Run.offer
    split <;> rfl
  have hlast : (r.offer u).buffer.lastDelivered = r.buffer.lastDelivered := by
    unfold Run.offer insert
    cases place u r.buffer.pending <;> rfl
  have hcounts : (r.offer u).buffer.counts.delivered = r.buffer.counts.delivered ∧
      (r.offer u).buffer.counts.skipped = r.buffer.counts.skipped := by
    unfold Run.offer insert
    cases place u r.buffer.pending <;> exact ⟨rfl, rfl⟩
  have hdeliveries : (r.offer u).deliveries = r.deliveries := by
    simp only [Run.deliveries, hturns]
  have hstretches : (r.offer u).stretches = r.stretches := by
    simp only [Run.stretches, hturns]
  -- none of this is touched, so the tiling is the same one
  cases h with
  | silent hd hl hq hzero hzero' =>
    exact .silent (hdeliveries.trans hd) (hlast.trans hl) (hturns ▸ hq) (hcounts.1.trans hzero)
      (hcounts.2.trans hzero')
  | started hd hl hstart hgo htiles hcount =>
    refine .started (hdeliveries.trans hd) (hlast.trans hl) hstart hgo (hstretches ▸ htiles) ?_
    rw [hcounts.1, hcounts.2]
    exact hcount

/-- Without an event and a delivery nothing has happened that counts. -/
theorem stretches_of_silent (hd : r.deliveries = []) (hq : ∀ t ∈ r.turns, t.event = none) :
    r.stretches = [] := by
  refine List.flatMap_eq_nil_iff.mpr fun t ht => ?_
  have hdel : t.delivery = none := List.filterMap_eq_nil_iff.mp hd t ht
  simp [Turn.stretches, Turn.lost?, hq t ht, hdel]

/-- A turn goes on where the tiling ends, or begins it. -/
theorem turn (h : r.Tiled) (now : Int) : (r.turn now).Tiled := by
  have o := next_outcome r.buffer now
  have hdel := r.deliveries_turn now
  have hstr := r.stretches_turn now
  cases h with
  | silent hd hl hq hzero hzero' =>
    -- nothing has been handed out so far, and nothing can be given up
    obtain ⟨hevent, hskip, ⟨hnone, hlast, hcount⟩ | ⟨u, hsome, hlast, hcount⟩⟩ := o.starts hl
    · refine .silent ?_ hlast (fun t ht => ?_) (hcount.trans hzero) (hskip.trans hzero')
      · rw [hdel, hd, hnone]
        rfl
      · rcases List.mem_append.mp ht with ht | ht
        · exact hq t ht
        · exact List.mem_singleton.mp ht ▸ hevent
    · -- the first unit opens the tiling
      have hd' : (r.turn now).deliveries = ⟨u, true⟩ :: [] := by
        rw [hdel, hd, hsome]
        rfl
      refine .started hd' hlast rfl (fun _ h => nomatch h) ?_ ?_
      · rw [hstr, stretches_of_silent hd hq]
        simp only [Turn.stretches, Turn.lost?, hevent, hsome]
        exact ⟨rfl, Nat.le_refl _, rfl⟩
      · show (r.buffer.next now).2.counts.delivered + (r.buffer.next now).2.counts.skipped +
          u.seq.raw.toNat = _
        omega
  | @started d ds last hd hl hstart hgo htiles hcount =>
    rcases o.tiles hl with ⟨hnone, hlost, hlast, hc, hc'⟩ | ⟨u, hsome, hlast, htile, hc⟩
    · refine .started ?_ hlast hstart hgo ?_ ?_
      · rw [hdel, hd, hnone]
        exact List.append_nil _
      · rw [hstr, Turn.stretches, hnone, hlost]
        exact (List.append_nil r.stretches).symm ▸ htiles
      · show (r.buffer.next now).2.counts.delivered + (r.buffer.next now).2.counts.skipped + _ = _
        rw [hc, hc', hcount]
    · -- the turn tiles what lies between the last unit and `u`
      have hd' : (r.turn now).deliveries = d :: (ds ++ [⟨u, false⟩]) := by
        rw [hdel, hd, hsome]
        rfl
      refine .started hd' hlast hstart (fun e he => ?_) ?_ ?_
      · rcases List.mem_append.mp he with he | he
        · exact hgo e he
        · exact List.mem_singleton.mp he ▸ rfl
      · rw [hstr]
        exact htiles.append htile
      · show (r.buffer.next now).2.counts.delivered + (r.buffer.next now).2.counts.skipped + _ = _
        omega

/-- Every run is tiled, by induction on its calls. -/
theorem run (grace : Int) (calls : List Call) : (run grace calls).Tiled :=
  Run.foldl_induction calls (init grace) (fun _ u h => h.offer u) fun _ now h => h.turn now

/-- All stretches of a run belong to one tiling. -/
theorem exists_tiles (h : r.Tiled) : ∃ lo hi, Tiles lo hi r.stretches := by
  cases h with
  | silent hd _ hq _ _ => exact ⟨0, 0, stretches_of_silent hd hq ▸ rfl⟩
  | started _ _ _ _ htiles _ => exact ⟨_, _, htiles⟩

/-- A range that is given up holds its first number at least. -/
theorem loss_le (h : r.Tiled) : ∀ l ∈ r.losses, l.1 ≤ l.2 := by
  obtain ⟨lo, hi, htiles⟩ := h.exists_tiles
  intro l hl
  exact SeqNumber.le_iff.mpr (htiles.first_le_last _ (Run.lost_mem_stretches.mpr hl))

/-- The ranges given up increase and do not overlap: they are stretches of one tiling. -/
theorem losses_pairwise (h : r.Tiled) : r.losses.Pairwise fun l m => l.2 < m.1 := by
  obtain ⟨lo, hi, htiles⟩ := h.exists_tiles
  rw [← r.filterMap_lost]
  -- stretches of a tiling lie one behind the other, so those that were lost do
  refine htiles.pairwise.filterMap _ fun s t hlt l hl m hm => ?_
  cases s with
  | delivered n => cases hl
  | lost first last =>
    cases t with
    | delivered n => cases hm
    | lost first' last' =>
      cases hl
      cases hm
      exact SeqNumber.lt_iff.mpr hlt

/-- What is handed out lies in no range that is given up. -/
theorem not_lost (h : r.Tiled) {d : Delivery} (hd : d ∈ r.deliveries) :
    ∀ l ∈ r.losses, ¬ (l.1 ≤ d.unit.seq ∧ d.unit.seq ≤ l.2) := by
  obtain ⟨lo, hi, htiles⟩ := h.exists_tiles
  rintro l hl ⟨hfirst, hlast⟩
  have hdis := htiles.disjoint (Run.delivered_mem_stretches.mpr ⟨d, hd, rfl⟩)
    (Run.lost_mem_stretches.mpr hl) (by simp)
  rw [SeqNumber.le_iff] at hfirst hlast
  simp only [Stretch.first, Stretch.last] at hdis
  omega

end Run.Tiled

/-- A number is covered by a run if it was handed out or given up. -/
def Run.Covers (r : Run) (n : SeqNumber) : Prop :=
  (∃ d ∈ r.deliveries, d.unit.seq = n) ∨ ∃ l ∈ r.losses, l.1 ≤ n ∧ n ≤ l.2

/-- A run covers the numbers that its stretches cover. -/
theorem Run.covers_iff {r : Run} {n : SeqNumber} :
    r.Covers n ↔ ∃ s ∈ r.stretches, s.first ≤ n.raw.toNat ∧ n.raw.toNat ≤ s.last := by
  constructor
  · rintro (⟨d, hd, rfl⟩ | ⟨l, hl, hfirst, hlast⟩)
    · exact ⟨_, Run.delivered_mem_stretches.mpr ⟨d, hd, rfl⟩, Nat.le_refl _, Nat.le_refl _⟩
    · exact ⟨_, Run.lost_mem_stretches.mpr hl, SeqNumber.le_iff.mp hfirst,
        SeqNumber.le_iff.mp hlast⟩
  · rintro ⟨s, hs, hfirst, hlast⟩
    -- a stretch is one number that was delivered or one range that was lost
    cases s with
    | delivered m =>
      have heq : m = n := SeqNumber.toNat_inj.mp (Nat.le_antisymm hfirst hlast)
      exact .inl (Run.delivered_mem_stretches.mp (heq ▸ hs))
    | lost first last =>
      exact .inr ⟨(first, last), Run.lost_mem_stretches.mp hs, SeqNumber.le_iff.mpr hfirst,
        SeqNumber.le_iff.mpr hlast⟩

/-- Units that wait while a range is given up are not in it. -/
theorem InOrder.pending_not_lost {r : Run} (h : InOrder r) {now : Int} {l : SeqNumber × SeqNumber}
    (hl : (r.buffer.next now).1.lost? = some l) :
    ∀ u ∈ r.buffer.pending, ¬ (l.1 ≤ u.seq ∧ u.seq ≤ l.2) := by
  rcases (next_outcome r.buffer now).handsOut_or_waits with
    ⟨_, hnone, _⟩ | ⟨v, rest, _, _, hfront, _, _, hlost⟩
  · rw [hnone] at hl
    cases hl
  obtain ⟨before, hbefore, hfirst, hlast⟩ := hlost l.1 l.2 hl
  rw [dropStale_pending h.sorted] at hfront
  intro u hu
  rw [SeqNumber.lt_iff] at hfirst hlast
  rw [SeqNumber.le_iff, SeqNumber.le_iff]
  -- a stale unit lies before the range, and a unit ahead of delivery behind it
  cases ha : r.buffer.ahead u with
  | false =>
    rw [← Bool.not_eq_true, ahead_iff hbefore, SeqNumber.lt_iff] at ha
    omega
  | true =>
    -- `u` is the unit in front or stands behind it
    have hsorted := h.sorted.filter r.buffer.ahead
    have hmem : u ∈ r.buffer.pending.filter r.buffer.ahead := List.mem_filter.mpr ⟨hu, ha⟩
    rw [hfront] at hsorted hmem
    rcases List.mem_cons.mp hmem with rfl | hmem
    · omega
    · have := (List.pairwise_cons.mp hsorted).1 u hmem
      rw [SeqNumber.lt_iff] at this
      omega

/-! ## No number is left out -/

/-- **No number is left out.** Whatever is put in and whenever units are asked for: the ranges given
up hold numbers, increase, do not overlap and hold no number that is handed out. Once a first unit
was handed out, the only one that is marked as a fresh start, the numbers covered are exactly those
from its number to the last one handed out, and the two counters add up to their count; before, no
event was raised and both counters are zero. A turn raises an event only after a delivery, and no
unit that waits at that time lies in the range that it gives up. -/
theorem run_leaves_no_number_out (grace : Int) (calls : List Call) :
    let r := run grace calls
    (∀ l ∈ r.losses, l.1 ≤ l.2) ∧ r.losses.Pairwise (fun l m => l.2 < m.1) ∧
      (∀ d ∈ r.deliveries, ∀ l ∈ r.losses, ¬ (l.1 ≤ d.unit.seq ∧ d.unit.seq ≤ l.2)) ∧
      ((r.deliveries = [] ∧ r.buffer.lastDelivered = none ∧ (∀ t ∈ r.turns, t.event = none) ∧
          r.buffer.counts.delivered = 0 ∧ r.buffer.counts.skipped = 0) ∨
        ∃ d ds last, r.deliveries = d :: ds ∧ r.buffer.lastDelivered = some last ∧
          d.discontinuity = true ∧ (∀ e ∈ ds, e.discontinuity = false) ∧
          (∀ n, r.Covers n ↔ d.unit.seq ≤ n ∧ n ≤ last) ∧
          ((r.buffer.counts.delivered + r.buffer.counts.skipped : Nat) : Int) =
            (last - d.unit.seq : Int) + 1) ∧
      ∀ now, ((r.buffer.next now).1.event.isSome → r.deliveries ≠ []) ∧
        ∀ l, (r.buffer.next now).1.lost? = some l →
          ∀ u ∈ r.buffer.pending, ¬ (l.1 ≤ u.seq ∧ u.seq ≤ l.2) := by
  intro r
  have horder : InOrder r := .run grace calls
  have htiled : r.Tiled := .run grace calls
  refine ⟨htiled.loss_le, htiled.losses_pairwise, fun d hd => htiled.not_lost hd, ?_,
    fun now => ⟨fun hevent hd => ?_, fun l hl => horder.pending_not_lost hl⟩⟩
  -- the two cases of the invariant are those of the statement
  · cases htiled with
    | silent hd hl hq hzero hzero' => exact .inl ⟨hd, hl, hq, hzero, hzero'⟩
    | @started d ds last hd hl hstart hgo htiles hcount =>
      refine .inr ⟨d, ds, last, hd, hl, hstart, hgo, fun n => ?_, ?_⟩
      · rw [Run.covers_iff, ← htiles.covered_iff, SeqNumber.le_iff, SeqNumber.le_iff]
        omega
      · show _ = (last.raw.toNat : Int) - d.unit.seq.raw.toNat + 1
        omega
  · cases htiled with
    | silent _ hl _ _ _ =>
      rw [((next_outcome r.buffer now).starts hl).1] at hevent
      cases hevent
    | started hd' _ _ _ _ _ =>
      rw [hd'] at hd
      cases hd

end Playout.ReorderBuffer
