import Mathlib.Data.List.Basic
import Playout.Proofs.Sequence.Number
import Playout.Reorder.Buffer

/-!
# What one call does to a reorder buffer

`insert` and `next` are opened here, once. `place_perm` and `place_pairwise` say where a unit
goes; `dropStale_pending` says that dropping at the front drops exactly what delivery has passed,
as long as the units are in order; and `next_outcome` lists everything that `next` can do, with
the conditions under which it does it:

    next_outcome : Outcome b now (b.next now).1 (b.next now).2

Numbers are compared in `Nat`. In an `Outcome` the unit in front lies ahead of what was last
delivered, so `last.next` and `u.seq.previous` never wrap around where they matter.
-/

namespace Playout

namespace ReorderBuffer

/-! ## Where a unit goes -/

/-- Placing a unit adds it to the row and changes nothing else but the order. -/
theorem place_perm {u : MediaUnit} {units placed : List MediaUnit}
    (h : place u units = some placed) : placed.Perm (u :: units) := by
  induction units generalizing placed with
  | nil =>
    cases h
    exact .refl _
  | cons v rest ih =>
    rw [place] at h
    split at h
    · cases h
      exact .refl _
    · split at h
      · cases h
      -- the unit goes behind `v`: it passes `v` on its way into the rest
      · obtain ⟨tail, htail, rfl⟩ := Option.map_eq_some_iff.mp h
        exact ((ih htail).cons v).trans (.swap u v rest)

/-- A unit that finds a place in an ordered row leaves it ordered. -/
theorem place_pairwise {u : MediaUnit} {units placed : List MediaUnit}
    (hs : units.Pairwise fun v w => v.seq < w.seq) (h : place u units = some placed) :
    placed.Pairwise fun v w => v.seq < w.seq := by
  induction units generalizing placed with
  | nil =>
    cases h
    exact List.pairwise_singleton _ _
  | cons v rest ih =>
    obtain ⟨hv, hrest⟩ := List.pairwise_cons.mp hs
    rw [place] at h
    split at h
    · next hlt =>
      cases h
      refine List.pairwise_cons.mpr ⟨fun w hw => ?_, hs⟩
      rcases List.mem_cons.mp hw with rfl | hw
      · exact hlt
      · exact SeqNumber.lt_trans hlt (hv w hw)
    · next hle =>
      split at h
      · cases h
      · next hne =>
        obtain ⟨tail, htail, rfl⟩ := Option.map_eq_some_iff.mp h
        refine List.pairwise_cons.mpr ⟨fun w hw => ?_, ih hrest htail⟩
        -- what stands behind `v` is either from `rest` or the unit itself, which is not before `v`
        rcases List.mem_cons.mp ((place_perm htail).mem_iff.mp hw) with rfl | hw
        · rw [SeqNumber.not_lt, SeqNumber.le_iff] at hle
          rw [← SeqNumber.toNat_inj] at hne
          rw [SeqNumber.lt_iff]
          omega
        · exact hv w hw

/-- In an ordered row a unit finds no place exactly if its number is there already. -/
theorem place_eq_none_iff {u : MediaUnit} {units : List MediaUnit}
    (hs : units.Pairwise fun v w => v.seq < w.seq) :
    place u units = none ↔ ∃ v ∈ units, v.seq = u.seq := by
  induction units with
  | nil => simp [place]
  | cons v rest ih =>
    obtain ⟨hv, hrest⟩ := List.pairwise_cons.mp hs
    rw [place, List.exists_mem_cons_iff]
    split
    · next hlt =>
      -- the unit stands in front of the row, and all others have larger numbers
      refine iff_of_false nofun ?_
      rintro (heq | ⟨w, hw, heq⟩)
      · exact SeqNumber.lt_irrefl _ (heq ▸ hlt)
      · exact SeqNumber.lt_irrefl _ (heq ▸ SeqNumber.lt_trans hlt (hv w hw))
    · split
      · next heq => exact iff_of_true rfl (.inl heq.symm)
      · next hne =>
        rw [Option.map_eq_none_iff, ih hrest]
        exact ⟨.inr, fun h => h.resolve_left (Ne.symm hne)⟩

/-! ## What taking a unit in does -/

/-- Taking a unit in, or refusing it, leaves the row in order. -/
theorem pairwise_insert {b : ReorderBuffer} (hs : b.pending.Pairwise fun v w => v.seq < w.seq)
    (u : MediaUnit) : (b.insert u).2.pending.Pairwise fun v w => v.seq < w.seq := by
  unfold insert
  split
  · next hp => exact place_pairwise hs hp
  · exact hs

/-- A unit whose number waits already is left out. -/
theorem insert_of_waiting {b : ReorderBuffer} {u : MediaUnit}
    (hs : b.pending.Pairwise fun v w => v.seq < w.seq) (h : ∃ v ∈ b.pending, v.seq = u.seq) :
    (b.insert u).2.pending = b.pending := by
  unfold insert
  rw [(place_eq_none_iff hs).mpr h]

/-- A unit with a new number joins those that wait. -/
theorem mem_insert_of_new {b : ReorderBuffer} {u v : MediaUnit}
    (hs : b.pending.Pairwise fun v w => v.seq < w.seq) (h : ¬ ∃ v ∈ b.pending, v.seq = u.seq) :
    v ∈ (b.insert u).2.pending ↔ v = u ∨ v ∈ b.pending := by
  unfold insert
  split
  · next hp => rw [(place_perm hp).mem_iff, List.mem_cons]
  · next hp => exact absurd ((place_eq_none_iff hs).mp hp) h

@[simp] theorem insert_lastDelivered (b : ReorderBuffer) (u : MediaUnit) :
    (b.insert u).2.lastDelivered = b.lastDelivered := by
  unfold insert
  split <;> rfl

@[simp] theorem insert_requested (b : ReorderBuffer) (u : MediaUnit) :
    (b.insert u).2.requested = b.requested := by
  unfold insert
  split <;> rfl

@[simp] theorem insert_gapOpened (b : ReorderBuffer) (u : MediaUnit) :
    (b.insert u).2.gapOpened = b.gapOpened := by
  unfold insert
  split <;> rfl

@[simp] theorem insert_grace (b : ReorderBuffer) (u : MediaUnit) :
    (b.insert u).2.grace = b.grace := by
  unfold insert
  split <;> rfl

@[simp] theorem insert_delivered (b : ReorderBuffer) (u : MediaUnit) :
    (b.insert u).2.counts.delivered = b.counts.delivered := by
  unfold insert
  split <;> rfl

@[simp] theorem insert_recovered (b : ReorderBuffer) (u : MediaUnit) :
    (b.insert u).2.counts.recovered = b.counts.recovered := by
  unfold insert
  split <;> rfl

@[simp] theorem insert_requests (b : ReorderBuffer) (u : MediaUnit) :
    (b.insert u).2.counts.requests = b.counts.requests := by
  unfold insert
  split <;> rfl

/-- What waits after a unit was offered is this unit, or waited before. -/
theorem mem_of_mem_insert {b : ReorderBuffer} {u v : MediaUnit}
    (hv : v ∈ (b.insert u).2.pending) : v = u ∨ v ∈ b.pending := by
  unfold insert at hv
  split at hv
  · next hp => exact List.mem_cons.mp ((place_perm hp).mem_iff.mp hv)
  · exact .inr hv

/-- What waits goes on waiting when a unit is offered. -/
theorem mem_insert_of_mem {b : ReorderBuffer} {u v : MediaUnit} (hv : v ∈ b.pending) :
    v ∈ (b.insert u).2.pending := by
  unfold insert
  split
  · next hp => exact (place_perm hp).mem_iff.mpr (List.mem_cons_of_mem u hv)
  · exact hv

/-! ## Units ahead of delivery -/

/-- Whether delivery has not reached a number yet. -/
def ahead (b : ReorderBuffer) (u : MediaUnit) : Bool :=
  match b.lastDelivered with
  | none => true
  | some last => decide (last < u.seq)

/-- Before the first delivery every unit is ahead. -/
theorem ahead_of_none {b : ReorderBuffer} (h : b.lastDelivered = none) (u : MediaUnit) :
    b.ahead u = true := by
  rw [ahead, h]

/-- From the first delivery on, the units ahead are those with larger numbers. -/
theorem ahead_iff {b : ReorderBuffer} {last : SeqNumber} (h : b.lastDelivered = some last)
    (u : MediaUnit) : b.ahead u = true ↔ last < u.seq := by
  rw [ahead, h, decide_eq_true_iff]

theorem ahead_congr {b c : ReorderBuffer} (h : b.lastDelivered = c.lastDelivered) :
    b.ahead = c.ahead := by
  funext u
  rw [ahead, ahead, h]

@[simp] theorem dropStale_lastDelivered (b : ReorderBuffer) :
    b.dropStale.lastDelivered = b.lastDelivered := by
  unfold dropStale
  split <;> rfl

@[simp] theorem dropStale_delivered (b : ReorderBuffer) :
    b.dropStale.counts.delivered = b.counts.delivered := by
  unfold dropStale
  split <;> rfl

@[simp] theorem dropStale_skipped (b : ReorderBuffer) :
    b.dropStale.counts.skipped = b.counts.skipped := by
  unfold dropStale
  split <;> rfl

@[simp] theorem dropStale_recovered (b : ReorderBuffer) :
    b.dropStale.counts.recovered = b.counts.recovered := by
  unfold dropStale
  split <;> rfl

@[simp] theorem dropStale_requests (b : ReorderBuffer) :
    b.dropStale.counts.requests = b.counts.requests := by
  unfold dropStale
  split <;> rfl

@[simp] theorem dropStale_requested (b : ReorderBuffer) :
    b.dropStale.requested = b.requested := by
  unfold dropStale
  split <;> rfl

@[simp] theorem dropStale_gapOpened (b : ReorderBuffer) :
    b.dropStale.gapOpened = b.gapOpened := by
  unfold dropStale
  split <;> rfl

@[simp] theorem dropStale_grace (b : ReorderBuffer) : b.dropStale.grace = b.grace := by
  unfold dropStale
  split <;> rfl

@[simp] theorem deliver_delivered (b : ReorderBuffer) (u : MediaUnit) (rest : List MediaUnit) :
    (b.deliver u rest).counts.delivered = b.counts.delivered + 1 := rfl

@[simp] theorem deliver_skipped (b : ReorderBuffer) (u : MediaUnit) (rest : List MediaUnit) :
    (b.deliver u rest).counts.skipped = b.counts.skipped := rfl

@[simp] theorem idle_lastDelivered (b : ReorderBuffer) (now : Int) :
    (b.idle now).lastDelivered = b.lastDelivered := rfl

@[simp] theorem idle_counts (b : ReorderBuffer) (now : Int) :
    (b.idle now).counts = b.counts := rfl

/-- The unit in front after dropping is ahead of delivery. -/
theorem ahead_of_dropStale {b : ReorderBuffer} {u : MediaUnit} {rest : List MediaUnit}
    {last : SeqNumber} (hp : b.dropStale.pending = u :: rest)
    (hl : b.lastDelivered = some last) : last < u.seq := by
  simp only [dropStale, hl] at hp
  have hhead : ¬ decide (u.seq ≤ last) = true := by
    have := List.head?_dropWhile_not (fun v : MediaUnit => decide (v.seq ≤ last)) b.pending
    rw [hp] at this
    simpa using this
  rw [decide_eq_true_iff, SeqNumber.le_iff] at hhead
  rw [SeqNumber.lt_iff]
  omega

/-- In an ordered row, dropping at the front keeps exactly the units ahead of delivery. -/
theorem dropStale_pending {b : ReorderBuffer}
    (hs : b.pending.Pairwise fun v w => v.seq < w.seq) :
    b.dropStale.pending = b.pending.filter b.ahead := by
  cases hl : b.lastDelivered with
  | none =>
    have hall : ∀ u ∈ b.pending, b.ahead u = true := fun u _ => ahead_of_none hl u
    simp only [dropStale, hl, List.filter_eq_self.mpr hall]
  | some last =>
    simp only [dropStale, hl]
    generalize b.pending = units at hs
    induction units with
    | nil => rfl
    | cons u rest ih =>
      obtain ⟨hu, hrest⟩ := List.pairwise_cons.mp hs
      by_cases hle : u.seq ≤ last
      · -- `u` is passed: both sides leave it out
        have hnot : b.ahead u = false := by
          rw [← Bool.not_eq_true, ahead_iff hl, SeqNumber.not_lt]
          exact hle
        rw [List.dropWhile_cons_of_pos (by simpa using hle),
          List.filter_cons_of_neg (by simp [hnot])]
        exact ih hrest
      · -- `u` ends the dropping, and what stands behind it is ahead because `u` is
        have hlt : last < u.seq := by
          rw [SeqNumber.le_iff] at hle
          rw [SeqNumber.lt_iff]
          omega
        have hall : ∀ v ∈ u :: rest, b.ahead v = true := by
          intro v hv
          rw [ahead_iff hl]
          rcases List.mem_cons.mp hv with rfl | hv
          · exact hlt
          · exact SeqNumber.lt_trans hlt (hu v hv)
        rw [List.dropWhile_cons_of_neg (by simpa using hle), List.filter_eq_self.mpr hall]

/-- Dropping at the front leaves the row in order. -/
theorem dropStale_sorted {b : ReorderBuffer} (hs : b.pending.Pairwise fun v w => v.seq < w.seq) :
    b.dropStale.pending.Pairwise fun v w => v.seq < w.seq := by
  rw [dropStale_pending hs]
  exact hs.filter _

/-- In an ordered row, a unit that is not behind the front is the front. -/
theorem eq_front {u v : MediaUnit} {rest : List MediaUnit}
    (hs : (v :: rest).Pairwise fun v w => v.seq < w.seq) (hu : u ∈ v :: rest)
    (hle : u.seq ≤ v.seq) : u = v := by
  rcases List.mem_cons.mp hu with rfl | hrest
  · rfl
  · have hlt := (List.pairwise_cons.mp hs).1 u hrest
    rw [SeqNumber.lt_iff] at hlt
    rw [SeqNumber.le_iff] at hle
    omega

/-! ## Everything that `next` can do -/

/-- `Outcome b now turn b'`: a call of `next` at `now` turns `b` into `b'` and brings `turn`. -/
inductive Outcome (b : ReorderBuffer) (now : Int) : Turn → ReorderBuffer → Prop
  /-- Nothing waits. -/
  | idle (hp : b.dropStale.pending = []) : Outcome b now {} (b.dropStale.idle now)
  /-- The first unit of the stream, whatever its number. -/
  | first {u : MediaUnit} {rest : List MediaUnit}
      (hp : b.dropStale.pending = u :: rest) (hl : b.lastDelivered = none) :
      Outcome b now { delivery := some ⟨u, true⟩ } (b.dropStale.deliver u rest)
  /-- The unit that comes next. -/
  | inOrder {u : MediaUnit} {rest : List MediaUnit} {last : SeqNumber}
      (hp : b.dropStale.pending = u :: rest) (hl : b.lastDelivered = some last)
      (hn : u.seq.raw.toNat = last.raw.toNat + 1) :
      Outcome b now { delivery := some ⟨u, false⟩ }
        ({ b.dropStale with
            counts.recovered :=
              b.dropStale.counts.recovered + if b.dropStale.requested then 1 else 0
          }.deliver u rest)
  /-- A gap is seen for the first time. -/
  | opens {u : MediaUnit} {rest : List MediaUnit} {last : SeqNumber}
      (hp : b.dropStale.pending = u :: rest) (hl : b.lastDelivered = some last)
      (hgap : last.raw.toNat + 1 < u.seq.raw.toNat) (ho : b.dropStale.gapOpened = none) :
      Outcome b now {} { b.dropStale with gapOpened := some now }
  /-- The missing unit is asked for. -/
  | asks {u : MediaUnit} {rest : List MediaUnit} {last : SeqNumber} {opened : Int}
      (hp : b.dropStale.pending = u :: rest) (hl : b.lastDelivered = some last)
      (hgap : last.raw.toNat + 1 < u.seq.raw.toNat) (ho : b.dropStale.gapOpened = some opened)
      (hearly : now - opened < b.dropStale.grace) (hr : b.dropStale.requested = false) :
      Outcome b now { event := some (.request last.next) }
        { b.dropStale with
          requested := true, counts.requests := b.dropStale.counts.requests + 1 }
  /-- The missing unit has been asked for, and its time is not over. -/
  | waits {u : MediaUnit} {rest : List MediaUnit} {last : SeqNumber} {opened : Int}
      (hp : b.dropStale.pending = u :: rest) (hl : b.lastDelivered = some last)
      (hgap : last.raw.toNat + 1 < u.seq.raw.toNat) (ho : b.dropStale.gapOpened = some opened)
      (hearly : now - opened < b.dropStale.grace) (hr : b.dropStale.requested = true) :
      Outcome b now {} b.dropStale
  /-- The gap is given up, and the unit behind it handed out. -/
  | skips {u : MediaUnit} {rest : List MediaUnit} {last : SeqNumber} {opened : Int}
      (hp : b.dropStale.pending = u :: rest) (hl : b.lastDelivered = some last)
      (hgap : last.raw.toNat + 1 < u.seq.raw.toNat) (ho : b.dropStale.gapOpened = some opened)
      (hlate : b.dropStale.grace ≤ now - opened) :
      Outcome b now
        { delivery := some ⟨u, false⟩, event := some (.lost last.next u.seq.previous) }
        ({ b.dropStale with
            counts.skipped := b.dropStale.counts.skipped + (u.seq - last.next).toNat
          }.deliver u rest)

/-- A call of `next` does one of the things that `Outcome` lists. Nothing else opens the operation:
what is proved of a turn is proved by cases on its `Outcome`, each of them with the conditions under
which it happens. -/
theorem next_outcome (b : ReorderBuffer) (now : Int) :
    Outcome b now (b.next now).1 (b.next now).2 := by
  cases hp : b.dropStale.pending with
  | nil =>
    simp only [next, hp]
    exact .idle hp
  | cons u rest =>
    cases hl : b.lastDelivered with
    | none =>
      simp only [next, hp, dropStale_lastDelivered, hl]
      exact .first hp hl
    | some last =>
      -- the front unit is ahead of delivery, so that `last.next` does not wrap around
      have hlt := ahead_of_dropStale hp hl
      have hnext := SeqNumber.toNat_next hlt
      simp only [next, hp, dropStale_lastDelivered, hl]
      split
      · next heq => exact .inOrder hp hl (by rw [heq, hnext])
      · next hne =>
        -- the front unit is neither passed nor the next one, so at least one number is missing
        have hgap : last.raw.toNat + 1 < u.seq.raw.toNat := by
          rw [SeqNumber.lt_iff] at hlt
          rw [← SeqNumber.toNat_inj, hnext] at hne
          omega
        -- behind a gap the window decides: it is opened, it is still running, or it is over
        unfold wait
        split
        · next ho => exact .opens hp hl hgap ho
        · next ho =>
          split
          · next hearly =>
            split
            · next hr => exact .waits hp hl hgap ho hearly hr
            · next hr => exact .asks hp hl hgap ho hearly (by simpa using hr)
          · next hlate => exact .skips hp hl hgap ho (by omega)

end ReorderBuffer

end Playout
