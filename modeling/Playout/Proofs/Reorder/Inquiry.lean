import Mathlib.Data.List.Basic
import Playout.Proofs.Reorder.Delivery

/-!
# What a turn does about requests

A buffer that waits asks for the missing unit once. From then on the number is *outstanding*, until
a turn settles the matter. In terms of requests a turn can do only four things, which `Inquiry`
lists:

    quiet      nothing, and nothing is forgotten
    asks       a number becomes outstanding, and none was before
    handsOut   a unit leaves; if a number was outstanding, it is the one of the unit
    givesUp    a range is given up; if a number was outstanding, it is the first of the range

The buffer also forgets its request when it finds nothing to wait for. That never loses one, because
an outstanding number is always warranted by a unit that waits behind the gap (`Warranted`).
-/

namespace Playout.ReorderBuffer

/-- The number that was asked for and is still waited for. -/
def outstanding? (b : ReorderBuffer) : Option SeqNumber :=
  if b.requested then b.lastDelivered.map (·.next) else none

/-- An outstanding request has its reason: a unit waits that is not the next one. -/
def Warranted (b : ReorderBuffer) : Prop :=
  b.requested = true → ∃ last, b.lastDelivered = some last ∧
    ∃ u ∈ b.pending, last.raw.toNat + 1 < u.seq.raw.toNat

/-- The number that a turn asks for. -/
def Turn.request? (t : Turn) : Option SeqNumber :=
  match t.event with
  | some (.request n) => some n
  | _ => none

/-- The number of the unit that a turn hands out. -/
def Turn.number? (t : Turn) : Option SeqNumber := t.delivery.map (·.unit.seq)

/-- The first of the numbers that a turn gives up. -/
def Turn.firstLost? (t : Turn) : Option SeqNumber := t.lost?.map (·.1)

/-- A turn that brings nothing. -/
def Turn.Silent (t : Turn) : Prop := t.delivery = none ∧ t.event = none

/-- The numbers asked for so far, the oldest first. -/
def Run.requests (r : Run) : List SeqNumber := r.turns.filterMap (·.request?)

/-- What is outstanding is the number behind the last one delivered, if a request is marked. -/
theorem outstanding?_eq_some_iff {b : ReorderBuffer} {n : SeqNumber} :
    b.outstanding? = some n ↔
      b.requested = true ∧ ∃ last, b.lastDelivered = some last ∧ last.next = n := by
  unfold outstanding?
  cases b.requested <;> simp

theorem outstanding?_of_not {b : ReorderBuffer} (h : b.requested = false) :
    b.outstanding? = none := by
  unfold outstanding?
  rw [h]
  rfl

theorem outstanding?_congr {b c : ReorderBuffer} (hr : b.requested = c.requested)
    (hl : b.lastDelivered = c.lastDelivered) : b.outstanding? = c.outstanding? := by
  unfold outstanding?
  rw [hr, hl]

/-! ## What a turn does about requests -/

/-- What a turn does about requests, with what becomes of the buffer. -/
inductive Inquiry (b b' : ReorderBuffer) : Turn → Prop
  | quiet (hlast : b'.lastDelivered = b.lastDelivered) (hopen : b'.requested = b.requested)
      (hasked : b'.counts.requests = b.counts.requests)
      (hback : b'.counts.recovered = b.counts.recovered) : Inquiry b b' {}
  | asks {last : SeqNumber} (hl : b.lastDelivered = some last)
      (hn : last.next.raw.toNat = last.raw.toNat + 1)
      (hnone : b.requested = false) (hlast : b'.lastDelivered = some last)
      (hopen : b'.requested = true) (hasked : b'.counts.requests = b.counts.requests + 1)
      (hback : b'.counts.recovered = b.counts.recovered) :
      Inquiry b b' { event := some (.request last.next) }
  | handsOut {d : Delivery} (hnext : ∀ last, b.lastDelivered = some last →
        last.next = d.unit.seq ∧ d.unit.seq.raw.toNat = last.raw.toNat + 1)
      (hlast : b'.lastDelivered = some d.unit.seq) (hclosed : b'.requested = false)
      (hasked : b'.counts.requests = b.counts.requests)
      (hback : b'.counts.recovered = b.counts.recovered + if b.requested then 1 else 0) :
      Inquiry b b' { delivery := some d }
  | givesUp {last stop : SeqNumber} {d : Delivery} (hl : b.lastDelivered = some last)
      (hn : last.next.raw.toNat = last.raw.toNat + 1)
      (hgap : last.raw.toNat + 1 < d.unit.seq.raw.toNat)
      (hlast : b'.lastDelivered = some d.unit.seq) (hclosed : b'.requested = false)
      (hasked : b'.counts.requests = b.counts.requests)
      (hback : b'.counts.recovered = b.counts.recovered) :
      Inquiry b b' { delivery := some d, event := some (.lost last.next stop) }

/-- A buffer that waits for a warranted request is not idle. -/
theorem Warranted.not_idle {b : ReorderBuffer} (h : b.Warranted)
    (hs : b.pending.Pairwise fun u v => u.seq < v.seq) (hp : b.dropStale.pending = []) :
    b.requested = false := by
  rw [← Bool.not_eq_true]
  intro hr
  obtain ⟨last, hl, u, hu, hgap⟩ := h hr
  have hahead : b.ahead u = true := (ahead_iff hl u).mpr (SeqNumber.lt_iff.mpr (by omega))
  rw [dropStale_pending hs] at hp
  exact List.not_mem_nil (hp ▸ List.mem_filter.mpr ⟨hu, hahead⟩)

/-- A unit that comes leaves the reason of a request where it is. -/
theorem Warranted.insert {b : ReorderBuffer} (h : b.Warranted) (u : MediaUnit) :
    (b.insert u).2.Warranted := by
  intro hr
  rw [insert_requested] at hr
  obtain ⟨last, hl, v, hv, hgap⟩ := h hr
  exact ⟨last, (insert_lastDelivered b u).trans hl, v, mem_insert_of_mem hv, hgap⟩

/-- Each outcome of a turn is one of the four things that it can do about requests. An idle turn
clears the mark, and is quiet because no request is outstanding then. -/
theorem Outcome.inquiry {b b' : ReorderBuffer} {now : Int} {t : Turn} (o : Outcome b now t b')
    (hw : b.Warranted) (hs : b.pending.Pairwise fun u v => u.seq < v.seq) : Inquiry b b' t := by
  cases o with
  | idle hp =>
    exact .quiet (dropStale_lastDelivered b) (hw.not_idle hs hp).symm (dropStale_requests b)
      (dropStale_recovered b)
  | first hp hl =>
    -- a request is warranted by a gap behind the last unit, and there is no last unit yet
    have hr : b.requested = false := by
      rw [← Bool.not_eq_true]
      intro hr
      obtain ⟨last, hlast, _⟩ := hw hr
      rw [hl] at hlast
      cases hlast
    refine .handsOut (fun last hlast => ?_) rfl rfl (dropStale_requests b) ?_
    · rw [hl] at hlast
      cases hlast
    · rw [hr]
      exact dropStale_recovered b
  | @inOrder u rest last hp hl hn =>
    have hnext := SeqNumber.toNat_next (ahead_of_dropStale hp hl)
    refine .handsOut (fun last' hlast => ?_) rfl rfl (dropStale_requests b) ?_
    · cases hl.symm.trans hlast
      exact ⟨SeqNumber.toNat_inj.mp (hnext.trans hn.symm), hn⟩
    · show b.dropStale.counts.recovered + (if b.dropStale.requested then 1 else 0) = _
      rw [dropStale_recovered, dropStale_requested]
  | opens hp hl hgap ho =>
    exact .quiet (dropStale_lastDelivered b) (dropStale_requested b) (dropStale_requests b)
      (dropStale_recovered b)
  | waits hp hl hgap ho hearly hr =>
    exact .quiet (dropStale_lastDelivered b) (dropStale_requested b) (dropStale_requests b)
      (dropStale_recovered b)
  | asks hp hl hgap ho hearly hr =>
    refine .asks hl (SeqNumber.toNat_next (ahead_of_dropStale hp hl))
      ((dropStale_requested b).symm.trans hr) ((dropStale_lastDelivered b).trans hl) rfl ?_
      (dropStale_recovered b)
    exact congrArg (· + 1) (dropStale_requests b)
  | skips hp hl hgap ho hlate =>
    exact .givesUp hl (SeqNumber.toNat_next (ahead_of_dropStale hp hl)) hgap rfl rfl
      (dropStale_requests b) (dropStale_recovered b)

namespace Inquiry

variable {b b' : ReorderBuffer} {t : Turn}

/-- A turn asks for the number behind the last one delivered. -/
theorem next_of_request (q : Inquiry b b' t) {n : SeqNumber} (h : t.request? = some n) :
    ∃ last, b.lastDelivered = some last ∧ n.raw.toNat = last.raw.toNat + 1 := by
  cases q with
  | quiet | handsOut | givesUp => cases h
  | asks hl hn =>
    cases h
    exact ⟨_, hl, hn⟩

/-- What delivery has passed does not come again. -/
theorem beyond (q : Inquiry b b' t) {n last : SeqNumber} (hl : b.lastDelivered = some last)
    (hle : n ≤ last) : (t.number? ≠ some n ∧ t.firstLost? ≠ some n) ∧
      ∃ last', b'.lastDelivered = some last' ∧ n ≤ last' := by
  rw [SeqNumber.le_iff] at hle
  cases q with
  | quiet hlast =>
    exact ⟨⟨nofun, nofun⟩, last, hlast.trans hl, SeqNumber.le_iff.mpr hle⟩
  | asks hl' _ _ hlast =>
    cases hl.symm.trans hl'
    exact ⟨⟨nofun, nofun⟩, last, hlast, SeqNumber.le_iff.mpr hle⟩
  -- the unit handed out is the next one, so its number is larger than `n`
  | @handsOut d hnext hlast =>
    have hseq := (hnext last hl).2
    refine ⟨⟨fun hnumber => ?_, nofun⟩, d.unit.seq, hlast, SeqNumber.le_iff.mpr (by omega)⟩
    obtain rfl : d.unit.seq = n := Option.some.inj hnumber
    omega
  -- the range begins behind `last`, and the unit stands behind the range
  | @givesUp last' stop d hl' hn hgap hlast =>
    cases hl.symm.trans hl'
    refine ⟨⟨fun hnumber => ?_, fun hfirst => ?_⟩, d.unit.seq, hlast,
      SeqNumber.le_iff.mpr (by omega)⟩
    · obtain rfl : d.unit.seq = n := Option.some.inj hnumber
      omega
    · obtain rfl : last.next = n := Option.some.inj hfirst
      omega

/-- A turn that asks counts one request, and no other turn does. -/
theorem requests_eq (q : Inquiry b b' t) :
    b'.counts.requests = b.counts.requests + t.request?.toList.length := by
  cases q with
  | quiet _ _ hasked | handsOut _ _ _ hasked | givesUp _ _ _ _ _ hasked => exact hasked
  | asks _ _ _ _ _ hasked => exact hasked

/-- An outstanding request stays so, or is counted as recovered, or its range is given up. -/
theorem recovered_balance (q : Inquiry b b' t) :
    b'.counts.recovered + (if t.lost?.isSome ∧ b.requested then 1 else 0) +
        (if b'.requested then 1 else 0) =
      b.counts.recovered + (if b.requested then 1 else 0) + t.request?.toList.length := by
  cases q with
  | quiet _ hopen _ hback => simp [hopen, hback, Turn.lost?, Turn.request?]
  | asks _ _ hnone _ hopen _ hback => simp [hnone, hopen, hback, Turn.lost?, Turn.request?]
  | handsOut _ _ hclosed _ hback => simp [hclosed, hback, Turn.lost?, Turn.request?]
  | givesUp _ _ _ _ hclosed _ hback => simp [hclosed, hback, Turn.lost?, Turn.request?]

end Inquiry

/-- After a turn an outstanding request is warranted: the unit in front waits behind the gap. -/
theorem Outcome.warranted {b b' : ReorderBuffer} {now : Int} {t : Turn}
    (o : Outcome b now t b') : b'.Warranted := by
  intro hr
  cases o with
  -- these turns leave no mark
  | idle | first | inOrder | skips => cases hr
  | @opens u rest last hp hl hgap | @asks u rest last _ hp hl hgap
  | @waits u rest last _ hp hl hgap =>
    refine ⟨last, (dropStale_lastDelivered b).trans hl, u, ?_, hgap⟩
    show u ∈ b.dropStale.pending
    rw [hp]
    exact List.mem_cons_self

end Playout.ReorderBuffer
