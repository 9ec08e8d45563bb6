import Mathlib.Data.List.DropRight
import Playout.Proofs.Reorder.Waiting

/-!
# The deadline of a stalled buffer

A caller that has nothing to do sleeps until `skipDeadline?`. What it finds then is decided by
`next`, which looks at the age of the window and not at the deadline, and drops stale units first.

After a turn that brought no unit the two agree (`Stalled`): the window is open, nothing that waits
is stale, and the unit in front is not the next one, so that only the age of the window counts, and
turns before the deadline change none of this.

A unit that comes late is stale as soon as it comes, and nobody drops it before the next turn. It
makes a buffer report a deadline that has nothing else to wait for:

    a turn at the deadline brings a unit ↔ a unit ahead of delivery waits
-/

namespace Playout.ReorderBuffer

variable {b b' : ReorderBuffer} {opened now : Int} {t : Turn}

/-- With an open window there is a deadline exactly if a unit waits. -/
theorem skipDeadline?_isSome_iff (h : b.gapOpened = some opened) :
    b.skipDeadline?.isSome ↔ b.pending ≠ [] := by
  unfold skipDeadline?
  rw [h]
  cases b.pending <;> simp

/-- The deadline is where the window ends, if a unit waits. -/
theorem skipDeadline?_eq_some_iff {d : Int} : b.skipDeadline? = some d ↔
    b.pending ≠ [] ∧ ∃ opened, b.gapOpened = some opened ∧ opened + b.grace = d := by
  unfold skipDeadline?
  cases b.pending <;> cases b.gapOpened <;> simp

/-! ## Stalled buffers -/

theorem dropStale_pending_congr (hp : b'.pending = b.pending)
    (hl : b'.lastDelivered = b.lastDelivered) : b'.dropStale.pending = b.dropStale.pending := by
  unfold dropStale
  rw [hp, hl]
  split
  · exact hp
  · rfl

/-- What is stale is dropped at once, so nothing stale is left. -/
theorem dropStale_pending_idem (b : ReorderBuffer) :
    b.dropStale.dropStale.pending = b.dropStale.pending := by
  cases hl : b.lastDelivered with
  | none => simp only [dropStale, hl]
  | some last => simp only [dropStale, hl, List.dropWhile_idempotent]

/-- A buffer that waits since `opened`. Nothing in it is stale, and the unit in front, if there is
one, stands behind a gap. -/
structure Stalled (b : ReorderBuffer) (opened : Int) : Prop where
  window : b.gapOpened = some opened
  fresh : b.dropStale.pending = b.pending
  gap : ∀ u ∈ b.pending.head?, ∃ last, b.lastDelivered = some last ∧
    last.raw.toNat + 1 < u.seq.raw.toNat

/-- A turn that brings no unit leaves a stalled buffer. -/
theorem Outcome.stalled (o : Outcome b now t b') (h : t.delivery = none) :
    Stalled b' (b.gapOpened.getD now) := by
  have hwindow := o.gapOpened_of_waits h
  -- what was stale is gone, and as no unit was delivered nothing becomes stale
  have hfresh : b'.pending = b.dropStale.pending ∧ b'.lastDelivered = b.lastDelivered →
      b'.dropStale.pending = b'.pending := by
    rintro ⟨hp, hl⟩
    rw [dropStale_pending_congr (b := b.dropStale) hp (hl.trans (dropStale_lastDelivered b).symm),
      dropStale_pending_idem, hp]
  cases o with
  | first | inOrder | skips => cases h
  | idle hp =>
    refine ⟨hwindow, hfresh ⟨rfl, dropStale_lastDelivered b⟩, fun u hu => ?_⟩
    have hnone : b.dropStale.pending.head? = some u := hu
    rw [hp] at hnone
    cases hnone
  | @opens u rest last hp hl hgap | @asks u rest last _ hp hl hgap
  | @waits u rest last _ hp hl hgap =>
    refine ⟨hwindow, hfresh ⟨rfl, dropStale_lastDelivered b⟩, fun v hv => ?_⟩
    have hfront : b.dropStale.pending.head? = some v := hv
    rw [hp] at hfront
    cases hfront
    exact ⟨last, (dropStale_lastDelivered b).trans hl, hgap⟩

namespace Stalled

/-- A stalled buffer hands its front out, and nothing else, when the window is over. -/
theorem handsOut_iff (h : Stalled b opened) (o : Outcome b now t b') :
    (t.delivery.isSome ↔ b.pending ≠ [] ∧ opened + b.grace ≤ now) ∧
      ∀ d ∈ t.delivery, b.pending.head? = some d.unit := by
  have hopen : b.dropStale.gapOpened = some opened := (dropStale_gapOpened b).trans h.window
  have hgrace := dropStale_grace b
  have hfresh := h.fresh
  cases o with
  | idle hp =>
    rw [hfresh] at hp
    exact ⟨iff_of_false nofun fun hdue => hdue.1 hp, nofun⟩
  | first hp hl =>
    -- before the first unit there is no gap
    rw [hfresh] at hp
    obtain ⟨last, hlast, -⟩ := h.gap _ (by rw [hp]; rfl)
    cases hl.symm.trans hlast
  | inOrder hp hl hn => -- the front would be the next unit, and there is a gap
    rw [hfresh] at hp
    obtain ⟨last, hlast, hgap⟩ := h.gap _ (by rw [hp]; rfl)
    cases hl.symm.trans hlast
    omega
  | opens hp hl hgap ho => cases ho.symm.trans hopen
  | asks hp hl hgap ho hearly | waits hp hl hgap ho hearly => -- too early
    cases ho.symm.trans hopen
    exact ⟨iff_of_false nofun fun hdue => by omega, nofun⟩
  | skips hp hl hgap ho hlate =>
    cases ho.symm.trans hopen
    rw [hfresh] at hp
    refine ⟨iff_of_true rfl ⟨hp ▸ List.cons_ne_nil _ _, by omega⟩, fun d hd => ?_⟩
    cases hd
    rw [hp]
    rfl

/-- Turns that bring nothing leave a stalled buffer as it is, as far as the deadline goes. -/
theorem turn (h : Stalled b opened) (o : Outcome b now t b') (hnone : t.delivery = none) :
    Stalled b' opened ∧ b'.pending = b.pending ∧ b'.grace = b.grace := by
  have hstalled := o.stalled hnone
  rw [h.window, Option.getD_some] at hstalled
  refine ⟨hstalled, ?_, o.grace_eq⟩
  rcases o.handsOut_or_waits with ⟨-, -, hp, -⟩ | ⟨u, rest, start, hd, -⟩
  · exact hp.trans h.fresh
  · cases hnone.symm.trans hd

end Stalled

/-! ## Turns before the deadline -/

/-- The buffer after turns at the given times, with nothing taken in between them. -/
def turnsAt (b : ReorderBuffer) (times : List Int) : ReorderBuffer :=
  times.foldl (fun b now => (b.next now).2) b

/-- Turns before the deadline leave a stalled buffer stalled, with the same units and the same
window. -/
theorem Stalled.turnsAt {times : List Int} (h : Stalled b opened)
    (hearly : ∀ s ∈ times, s < opened + b.grace) :
    Stalled (b.turnsAt times) opened ∧ (b.turnsAt times).pending = b.pending ∧
      (b.turnsAt times).grace = b.grace := by
  induction times generalizing b with
  | nil => exact ⟨h, rfl, rfl⟩
  | cons now times ih =>
    obtain ⟨hnow, htimes⟩ := List.forall_mem_cons.mp hearly
    have o := next_outcome b now
    -- before the deadline no unit is handed out, and so the buffer stays stalled
    have hnone : (b.next now).1.delivery = none := by
      rw [← Option.not_isSome_iff_eq_none, (h.handsOut_iff o).1]
      omega
    obtain ⟨hstalled, hpending, hgrace⟩ := h.turn o hnone
    obtain ⟨hrest, hpending', hgrace'⟩ := ih hstalled (hgrace ▸ htimes)
    exact ⟨hrest, hpending'.trans hpending, hgrace'.trans hgrace⟩

/-- **After a turn without a unit the deadline says when the next one comes.** In any run, after a
turn that brings no unit, there is a deadline exactly if units wait. Then any number of turns before
the deadline bring nothing and leave it where it is, and after them a turn brings a unit exactly if
it comes at the deadline or later; the unit is the one in front. -/
theorem next_hands_out_from_deadline_on {grace : Int} {calls : List Call} {now : Int}
    (h : ((run grace calls).buffer.next now).1.delivery = none) :
    let b := ((run grace calls).buffer.next now).2
    (b.skipDeadline?.isSome ↔ b.pending ≠ []) ∧
      ∀ d, b.skipDeadline? = some d → ∀ times, (∀ s ∈ times, s < d) →
        let c := b.turnsAt times
        c.pending = b.pending ∧ c.skipDeadline? = some d ∧
          ∀ s, ((c.next s).1.delivery.isSome ↔ d ≤ s) ∧
            ∀ e ∈ (c.next s).1.delivery, b.pending.head? = some e.unit := by
  intro b
  have hstalled := (next_outcome (run grace calls).buffer now).stalled h
  refine ⟨skipDeadline?_isSome_iff hstalled.window, fun d hd times hearly => ?_⟩
  intro c
  obtain ⟨hwaits, opened, hopened, rfl⟩ := skipDeadline?_eq_some_iff.mp hd
  -- the deadline is counted from the window that the turn has left open
  cases hstalled.window.symm.trans hopened
  obtain ⟨hlater, hpending, hgrace⟩ := hstalled.turnsAt hearly
  refine ⟨hpending, ?_, fun s => ?_⟩
  · exact skipDeadline?_eq_some_iff.mpr ⟨hpending ▸ hwaits, _, hlater.window, by rw [hgrace]⟩
  · obtain ⟨hiff, hfront⟩ := hlater.handsOut_iff (next_outcome c s)
    rw [hpending] at hfront
    refine ⟨hiff.trans ⟨fun hdue => hgrace ▸ hdue.2, fun hdue => ?_⟩, hfront⟩
    exact ⟨hpending ▸ hwaits, hgrace ▸ hdue⟩

/-- Behind the gap between 1 and 3, seen at time 0, number 3 waits until time 50 and no longer. -/
theorem gap_waits_until_fifty :
    let calls : List Call := [.insert ⟨⟨1⟩, [], 0, 0⟩, .next 0, .insert ⟨⟨3⟩, [], 0, 0⟩]
    let b := ((run 50 calls).buffer.next 0).2
    ((run 50 calls).buffer.next 0).1.delivery = none ∧ b.skipDeadline? = some 50 ∧
      (∀ s ∈ [10, 49], s < (50 : Int)) ∧ (b.turnsAt [10, 49]).skipDeadline? = some 50 ∧
      ((b.turnsAt [10, 49]).next 50).1.delivery.isSome := by
  intro calls
  have hnone : ((run 50 calls).buffer.next 0).1.delivery = none := by decide
  have hdeadline : ((run 50 calls).buffer.next 0).2.skipDeadline? = some 50 := by decide
  have hearly : ∀ s ∈ [10, 49], s < (50 : Int) := by decide
  obtain ⟨-, hpolls⟩ := next_hands_out_from_deadline_on hnone
  obtain ⟨-, hkept, hdue⟩ := hpolls 50 hdeadline [10, 49] hearly
  exact ⟨hnone, hdeadline, hearly, hkept, (hdue 50).1.mpr (Int.le_refl 50)⟩

/-! ## Deadlines for nothing -/

/-- What a turn hands out was ahead of delivery. -/
theorem Outcome.ahead_of_handsOut (o : Outcome b now t b')
    (hs : b.pending.Pairwise fun u v => u.seq < v.seq) (h : t.delivery.isSome) :
    ∃ u ∈ b.pending, b.ahead u = true := by
  rcases o.handsOut_or_waits with ⟨hnone, -⟩ | ⟨u, rest, start, -, hfront, -⟩
  · rw [hnone] at h
    cases h
  · rw [dropStale_pending hs] at hfront
    exact ⟨u, List.mem_filter.mp (hfront ▸ List.mem_cons_self)⟩

/-- Whatever comes before the next turn, from the deadline on a turn brings a unit exactly if a unit
ahead of delivery waits. If none does, only stale units have waited, and with them goes the
deadline. -/
theorem deadline_brings_unit_iff {grace : Int} {calls : List Call} {d : Int}
    (h : (run grace calls).buffer.skipDeadline? = some d) :
    let b := (run grace calls).buffer
    ∀ t, d ≤ t →
      ((b.next t).1.delivery.isSome ↔ ∃ u ∈ b.pending, b.ahead u = true) ∧
      ((b.next t).1.delivery = none → (b.next t).2.skipDeadline? = none) := by
  intro b t hdue
  have o : Outcome b t (b.next t).1 (b.next t).2 := next_outcome b t
  have hs : b.pending.Pairwise fun u v => u.seq < v.seq := (InOrder.run grace calls).sorted
  obtain ⟨-, opened, hopen, rfl⟩ := skipDeadline?_eq_some_iff.mp h
  have hold : b.grace ≤ t - opened := Int.le_sub_left_of_add_le hdue
  have hlate : ∀ u ∈ b.pending, b.ahead u = true → (b.next t).1.delivery.isSome :=
    fun u hu ha => o.handsOut_of_late hs hu ha hopen hold
  refine ⟨⟨o.ahead_of_handsOut hs, fun ⟨u, hu, ha⟩ => hlate u hu ha⟩, fun hnone => ?_⟩
  -- without a delivery nothing was ahead, so all that waited was stale and has been dropped
  have hempty : (b.next t).2.pending = [] := by
    rcases o.handsOut_or_waits with ⟨-, -, hp, -⟩ | ⟨u, rest, start, hd, -⟩
    · rw [hp, dropStale_pending hs, List.filter_eq_nil_iff]
      intro u hu ha
      have hbrings := hlate u hu ha
      rw [hnone] at hbrings
      cases hbrings
    · cases hnone.symm.trans hd
  rw [← Option.not_isSome_iff_eq_none, skipDeadline?_isSome_iff (o.gapOpened_of_waits hnone)]
  exact not_not_intro hempty

/-- Number 5 has been handed out when 3 and 7 come: 3 is stale, and 7 is what the deadline
is for. -/
theorem deadline_brings_seven :
    let calls : List Call := [.insert ⟨⟨5⟩, [], 0, 0⟩, .next 0, .next 0,
      .insert ⟨⟨3⟩, [], 0, 0⟩, .insert ⟨⟨7⟩, [], 0, 0⟩]
    let b := (run 50 calls).buffer
    b.skipDeadline? = some 50 ∧ (50 : Int) ≤ 50 ∧ (b.next 50).1.delivery.isSome := by
  intro calls b
  have hdeadline : b.skipDeadline? = some 50 := by decide
  obtain ⟨hiff, -⟩ := deadline_brings_unit_iff hdeadline 50 (Int.le_refl 50)
  exact ⟨hdeadline, Int.le_refl 50, hiff.mpr ⟨⟨⟨7⟩, [], 0, 0⟩, by decide, by decide⟩⟩

/-- A deadline may be for nothing: number 3 comes when 5 has been handed out. -/
theorem late_unit_deadline_for_nothing :
    ¬ ∀ (grace : Int) (calls : List Call) (d : Int),
      (run grace calls).buffer.skipDeadline? = some d →
        ((run grace calls).buffer.next d).1.delivery.isSome := by
  intro h
  have hnothing := h 50 [.insert ⟨⟨5⟩, [], 0, 0⟩, .next 0, .next 0, .insert ⟨⟨3⟩, [], 0, 0⟩] 50
    (by decide)
  revert hnothing
  decide

end Playout.ReorderBuffer
