import Mathlib.Data.List.Basic
import Mathlib.Logic.Basic
import Playout.Proofs.Reorder.Inquiry

/-!
# Every request is settled before the next one

A number that was asked for stays outstanding until a turn settles the matter: it hands the unit
out, or it gives up a range that starts with the number. Three things are kept along a run, each of
them with one case for each kind of `Inquiry`:

    Asked        requests increase, and delivery has passed them or waits for the last one
    AllPursued   after a request nothing happens until it is settled; then its number is done with
    Balanced     the counters say how many requests there were and what became of them
-/

namespace Playout.ReorderBuffer

/-! ## What becomes of a request -/

/-- The run with one more turn, which leaves the buffer `b'`. -/
def Run.goOn (r : Run) (b' : ReorderBuffer) (t : Turn) : Run :=
  { r with buffer := b', turns := r.turns ++ [t] }

@[simp] theorem Run.goOn_buffer (r : Run) (b' : ReorderBuffer) (t : Turn) :
    (r.goOn b' t).buffer = b' := rfl

@[simp] theorem Run.requests_goOn (r : Run) (b' : ReorderBuffer) (t : Turn) :
    (r.goOn b' t).requests = r.requests ++ t.request?.toList := by
  simp only [goOn, requests, List.filterMap_append]
  cases h : t.request? <;> simp [h]

@[simp] theorem Run.losses_goOn (r : Run) (b' : ReorderBuffer) (t : Turn) :
    (r.goOn b' t).losses = r.losses ++ t.lost?.toList := by
  simp only [goOn, losses, List.filterMap_append]
  cases h : t.lost? <;> simp [h]

@[simp] theorem Run.requests_offer (r : Run) (u : MediaUnit) :
    (r.offer u).requests = r.requests := by
  unfold requests
  rw [offer_turns]

@[simp] theorem Run.losses_offer (r : Run) (u : MediaUnit) :
    (r.offer u).losses = r.losses := by
  unfold losses
  rw [offer_turns]

/-- How requests and ranges given up lie to delivery. -/
structure Run.Asked (r : Run) : Prop where
  warranted : r.buffer.Warranted
  increasing : r.requests.Pairwise (· < ·)
  /-- Delivery has passed what was asked for, or it is outstanding. -/
  reached : ∀ n ∈ r.requests, ∃ last, r.buffer.lastDelivered = some last ∧
    (n ≤ last ∨ r.buffer.requested = true ∧ n = last.next)
  outstanding_mem : ∀ n, r.buffer.outstanding? = some n → n ∈ r.requests
  passed : ∀ l ∈ r.losses, ∃ last, r.buffer.lastDelivered = some last ∧ l.1 ≤ last

namespace Run.Asked

variable {r : Run} {b' : ReorderBuffer} {t : Turn}

theorem init (grace : Int) : Asked { buffer := { grace } } where
  warranted := fun h => nomatch h
  increasing := .nil
  reached := fun _ h => nomatch h
  outstanding_mem := fun _ h => nomatch h
  passed := fun _ h => nomatch h

/-- The number behind the last one delivered has been asked for exactly if it is outstanding. -/
theorem next_mem_iff (h : r.Asked) {last : SeqNumber} (hl : r.buffer.lastDelivered = some last)
    (hn : last.next.raw.toNat = last.raw.toNat + 1) :
    last.next ∈ r.requests ↔ r.buffer.requested = true := by
  constructor
  · intro hmem
    obtain ⟨last', hl', hle | ⟨hr, _⟩⟩ := h.reached _ hmem
    · cases hl.symm.trans hl'
      rw [SeqNumber.le_iff] at hle
      omega
    · exact hr
  · exact fun hr => h.outstanding_mem _ (outstanding?_eq_some_iff.mpr ⟨hr, last, hl, rfl⟩)

theorem offer (h : r.Asked) (u : MediaUnit) : (r.offer u).Asked := by
  have hopen : (r.offer u).buffer.outstanding? = r.buffer.outstanding? :=
    outstanding?_congr (by simp) (by simp)
  refine ⟨?_, ?_, ?_, ?_, ?_⟩
  · rw [offer_buffer]
    exact h.warranted.insert u
  · rw [requests_offer]
    exact h.increasing
  · rw [requests_offer, offer_buffer, insert_lastDelivered, insert_requested]
    exact h.reached
  · rw [requests_offer, hopen]
    exact h.outstanding_mem
  · rw [losses_offer, offer_buffer, insert_lastDelivered]
    exact h.passed

/-- The number that a turn asks for is larger than those asked for before. -/
theorem increasing_goOn (h : r.Asked) (q : Inquiry r.buffer b' t) :
    (r.goOn b' t).requests.Pairwise (· < ·) := by
  rw [requests_goOn]
  cases q with
  | quiet | handsOut | givesUp => exact (List.append_nil r.requests).symm ▸ h.increasing
  | asks hl hn hnone =>
    refine List.pairwise_append.mpr ⟨h.increasing, List.pairwise_singleton _ _, ?_⟩
    intro n hmem m hm
    rw [List.mem_singleton.mp hm]
    -- delivery has passed the numbers asked for before, since none of them is outstanding
    obtain ⟨last, hlast, hle | ⟨hr, _⟩⟩ := h.reached n hmem
    · cases hl.symm.trans hlast
      rw [SeqNumber.le_iff] at hle
      rw [SeqNumber.lt_iff]
      omega
    · rw [hnone] at hr
      cases hr

/-- After a turn, too, delivery has passed what was asked for, or it is outstanding. -/
theorem reached_goOn (h : r.Asked) (q : Inquiry r.buffer b' t) :
    ∀ n ∈ (r.goOn b' t).requests, ∃ last, b'.lastDelivered = some last ∧
      (n ≤ last ∨ b'.requested = true ∧ n = last.next) := by
  rw [requests_goOn]
  intro n hmem
  rcases List.mem_append.mp hmem with hmem | hmem
  · obtain ⟨last, hl, hle | ⟨hr, rfl⟩⟩ := h.reached n hmem
    · obtain ⟨-, last', hlast, hle⟩ := q.beyond hl hle
      exact ⟨last', hlast, .inl hle⟩
    -- `n` was outstanding: the turn leaves it so, or settles it and delivery passes it
    · cases q with
      | quiet hlast hopen => exact ⟨last, hlast.trans hl, .inr ⟨hopen.trans hr, rfl⟩⟩
      | asks _ _ hnone =>
        rw [hnone] at hr
        cases hr
      | @handsOut d hnext hlast =>
        rw [(hnext last hl).1]
        exact ⟨d.unit.seq, hlast, .inl (SeqNumber.le_iff.mpr (Nat.le_refl _))⟩
      | @givesUp last' stop d hl' hn hgap hlast =>
        cases hl.symm.trans hl'
        exact ⟨d.unit.seq, hlast, .inl (SeqNumber.le_iff.mpr (by omega))⟩
  · cases q with
    | quiet | handsOut | givesUp => cases hmem
    | @asks last hl hn hnone hlast hopen =>
      exact ⟨last, hlast, .inr ⟨hopen, List.mem_singleton.mp hmem⟩⟩

/-- What is outstanding after a turn was outstanding before, or was asked for in the turn. -/
theorem outstanding_mem_goOn (h : r.Asked) (q : Inquiry r.buffer b' t) :
    ∀ n, b'.outstanding? = some n → n ∈ (r.goOn b' t).requests := by
  rw [requests_goOn]
  intro n hn
  cases q with
  | quiet hlast hopen =>
    rw [outstanding?_congr hopen hlast] at hn
    exact List.mem_append_left _ (h.outstanding_mem n hn)
  | asks hl _ _ hlast => -- what is outstanding now is what this turn asks for
    obtain ⟨_, last, hlast', rfl⟩ := outstanding?_eq_some_iff.mp hn
    cases hlast.symm.trans hlast'
    exact List.mem_append_right _ List.mem_cons_self
  -- a unit was handed out, so nothing is outstanding
  | handsOut _ _ hclosed | givesUp _ _ _ _ hclosed =>
    rw [outstanding?_of_not hclosed] at hn
    cases hn

/-- After a turn, too, delivery has passed the ranges that were given up. -/
theorem passed_goOn (h : r.Asked) (q : Inquiry r.buffer b' t) :
    ∀ l ∈ (r.goOn b' t).losses, ∃ last, b'.lastDelivered = some last ∧ l.1 ≤ last := by
  rw [losses_goOn]
  intro l hmem
  rcases List.mem_append.mp hmem with hmem | hmem
  · obtain ⟨last, hl, hle⟩ := h.passed l hmem
    exact (q.beyond hl hle).2
  · -- the range is given up in this turn, and lies before the unit handed out
    cases q with
    | quiet | asks | handsOut => cases hmem
    | @givesUp last stop d hl hn hgap hlast =>
      cases List.mem_singleton.mp hmem
      refine ⟨d.unit.seq, hlast, SeqNumber.le_iff.mpr ?_⟩
      show last.next.raw.toNat ≤ _
      omega

/-- A turn keeps how requests and ranges lie to delivery. -/
theorem goOn (h : r.Asked) (q : Inquiry r.buffer b' t) (hw : b'.Warranted) :
    (r.goOn b' t).Asked where
  warranted := hw
  increasing := h.increasing_goOn q
  reached := h.reached_goOn q
  outstanding_mem := h.outstanding_mem_goOn q
  passed := h.passed_goOn q

end Run.Asked

/-! ## Requests are pursued -/

/-- The turns after a request for `n` settle it: nothing happens until one of them hands the unit
out or gives up a range that starts with it, and after that the number does not come again. -/
def Settled (n : SeqNumber) (after : List Turn) : Prop :=
  ∃ silent t rest, after = silent ++ t :: rest ∧ (∀ s ∈ silent, s.Silent) ∧
    Xor (t.number? = some n) (t.firstLost? = some n) ∧
    ∀ s ∈ rest, s.number? ≠ some n ∧ s.firstLost? ≠ some n

/-- What has become of a request for `n`, after which the run went on with the turns `after`. -/
def Run.Pursued (r : Run) (n : SeqNumber) (after : List Turn) : Prop :=
  (r.buffer.outstanding? = some n ∧ ∀ t ∈ after, t.Silent) ∨
    (∃ last, r.buffer.lastDelivered = some last ∧ n ≤ last) ∧ Settled n after

/-- Every request of a run has been pursued. -/
def Run.AllPursued (r : Run) : Prop :=
  ∀ before t after n, r.turns = before ++ t :: after → t.request? = some n → r.Pursued n after

namespace Run.AllPursued

variable {r : Run} {b' : ReorderBuffer} {t : Turn}

theorem init (grace : Int) : AllPursued { buffer := { grace } } := by
  intro before t after n hsplit hn
  cases before <;> cases hsplit

theorem offer (h : r.AllPursued) (u : MediaUnit) : (r.offer u).AllPursued := by
  intro before t after n hsplit hn
  have hopen : (r.offer u).buffer.outstanding? = r.buffer.outstanding? :=
    outstanding?_congr (by simp) (by simp)
  unfold Pursued
  rw [hopen, offer_buffer, insert_lastDelivered]
  exact h before t after n ((offer_turns r u) ▸ hsplit) hn

/-- The next turn leaves a request open, or settles it, or is about numbers behind it. -/
theorem pursued_goOn {n : SeqNumber} {after : List Turn} (q : Inquiry r.buffer b' t)
    (h : r.Pursued n after) : (r.goOn b' t).Pursued n (after ++ [t]) := by
  rcases h with ⟨hopen, hsilent⟩ | ⟨⟨last, hl, hle⟩, silent, s, rest, rfl, hsilent, hsettles, hrest⟩
  -- the request is open, and the turn leaves it open, or hands the unit out, or gives it up
  · obtain ⟨hr, last, hl, rfl⟩ := outstanding?_eq_some_iff.mp hopen
    cases q with
    | quiet hlast hstill =>
      refine .inl ⟨(outstanding?_congr hstill hlast).trans hopen, fun s hs => ?_⟩
      rcases List.mem_append.mp hs with hs | hs
      · exact hsilent s hs
      · exact List.mem_singleton.mp hs ▸ ⟨rfl, rfl⟩
    | asks _ _ hnone =>
      rw [hnone] at hr
      cases hr
    | @handsOut d hnext hlast =>
      have heq : last.next = d.unit.seq := (hnext last hl).1
      refine .inr ⟨⟨d.unit.seq, hlast, ?_⟩, after, _, [], rfl, hsilent, .inl ⟨?_, ?_⟩, ?_⟩
      · rw [heq]
        exact SeqNumber.le_iff.mpr (Nat.le_refl _)
      · exact congrArg some heq.symm
      · exact fun hlost => nomatch hlost
      · exact fun _ hs => nomatch hs
    | @givesUp last' stop d hl' hn hgap hlast =>
      cases hl.symm.trans hl'
      refine .inr ⟨⟨d.unit.seq, hlast, ?_⟩, after, _, [], rfl, hsilent, .inr ⟨rfl, ?_⟩, ?_⟩
      · rw [SeqNumber.le_iff]
        omega
      · intro hnumber
        have heq : d.unit.seq = last.next := Option.some.inj hnumber
        rw [← SeqNumber.toNat_inj] at heq
        omega
      · exact fun _ hs => nomatch hs
  -- the request was settled in a turn before, and its number does not come again
  · obtain ⟨hnot, hpassed⟩ := q.beyond hl hle
    refine .inr ⟨hpassed, silent, s, rest ++ [t], ?_, hsilent, hsettles, fun u hu => ?_⟩
    · rw [List.append_assoc, List.cons_append]
    · rcases List.mem_append.mp hu with hu | hu
      · exact hrest u hu
      · exact List.mem_singleton.mp hu ▸ hnot

theorem goOn (h : r.AllPursued) (q : Inquiry r.buffer b' t) : (r.goOn b' t).AllPursued := by
  intro before s after n hsplit hn
  -- the request was made in this turn, or in one before it
  rcases List.eq_nil_or_concat after with rfl | ⟨after, x, rfl⟩
  · obtain ⟨-, hlast⟩ := List.append_inj' hsplit rfl
    cases hlast
    cases q with
    | quiet | handsOut | givesUp => cases hn
    | asks hl _ _ hlast hopen =>
      cases hn
      exact .inl ⟨outstanding?_eq_some_iff.mpr ⟨hopen, _, hlast, rfl⟩, fun _ h => nomatch h⟩
  · rw [List.concat_eq_append] at hsplit ⊢
    rw [← List.cons_append, ← List.append_assoc] at hsplit
    obtain ⟨hbefore, hlast⟩ := List.append_inj' hsplit rfl
    cases hlast
    exact pursued_goOn q (h before s after n hbefore hn)

end Run.AllPursued

/-! ## Requests are counted -/

/-- The ranges given up so far that start with a number asked for. -/
def Run.unanswered (r : Run) : List (SeqNumber × SeqNumber) :=
  r.losses.filter fun l => decide (l.1 ∈ r.requests)

/-- The counters of a run say what became of its requests. -/
structure Run.Balanced (r : Run) : Prop where
  counted : r.buffer.counts.requests = r.requests.length
  balance : r.buffer.counts.requests = r.buffer.counts.recovered + r.unanswered.length +
    if r.buffer.requested then 1 else 0

namespace Run.Balanced

variable {r : Run} {b' : ReorderBuffer} {t : Turn}

theorem offer (h : r.Balanced) (u : MediaUnit) : (r.offer u).Balanced := by
  refine ⟨?_, ?_⟩
  · rw [requests_offer, offer_buffer, insert_requests]
    exact h.counted
  · rw [unanswered, requests_offer, losses_offer, offer_buffer, insert_requests, insert_recovered,
      insert_requested]
    exact h.balance

/-- A turn that gives a range up adds it, if its first number was asked for. -/
theorem length_unanswered_goOn (ha : r.Asked) (q : Inquiry r.buffer b' t) :
    (r.goOn b' t).unanswered.length = r.unanswered.length +
      if t.lost?.isSome ∧ r.buffer.requested then 1 else 0 := by
  unfold unanswered
  rw [requests_goOn, losses_goOn]
  cases q with
  | quiet | handsOut => simp [Turn.request?, Turn.lost?]
  | @asks last hl hn =>
    -- the new number is behind every range given up
    have hsame : ∀ l ∈ r.losses, decide (l.1 ∈ r.requests ++ [last.next]) =
        decide (l.1 ∈ r.requests) := by
      intro l hmem
      obtain ⟨last', hl', hle⟩ := ha.passed l hmem
      cases hl.symm.trans hl'
      have hne : l.1 ≠ last.next := by
        rw [SeqNumber.le_iff] at hle
        rw [Ne, ← SeqNumber.toNat_inj]
        omega
      simp [hne]
    show ((r.losses ++ []).filter _).length = _
    rw [List.append_nil]
    refine (congrArg List.length (List.filter_congr hsame)).trans ?_
    simp [Turn.lost?]
  | @givesUp last stop d hl hn =>
    simp only [Turn.request?, Turn.lost?, Option.toList_none, List.append_nil, Option.toList_some,
      List.filter_append, List.length_append, Option.isSome_some, true_and,
      ← ha.next_mem_iff hl hn]
    split
    · next hmem => simp [hmem]
    · next hmem => simp [hmem]

theorem goOn (h : r.Balanced) (ha : r.Asked) (q : Inquiry r.buffer b' t) :
    (r.goOn b' t).Balanced := by
  have hcounted := h.counted
  have hbalance := h.balance
  have hrequests := q.requests_eq
  have hrecovered := q.recovered_balance
  refine ⟨?_, ?_⟩
  · rw [requests_goOn, List.length_append, goOn_buffer]
    omega
  · rw [length_unanswered_goOn ha q, goOn_buffer]
    omega

end Run.Balanced

/-! ## Every request is settled -/

/-- What holds of the requests of a run, with the order of its units. -/
structure Run.Settling (r : Run) : Prop where
  order : InOrder r
  asked : r.Asked
  pursued : r.AllPursued
  balanced : r.Balanced

/-- Every run settles its requests, by induction on its calls. -/
theorem Run.Settling.run (grace : Int) (calls : List Call) : (run grace calls).Settling := by
  refine Run.foldl_induction calls ⟨.init grace, .init grace, .init grace, ⟨rfl, rfl⟩⟩ ?_ ?_
  · intro r u h
    exact ⟨h.order.offer u, h.asked.offer u, h.pursued.offer u, h.balanced.offer u⟩
  · intro r now h
    have o := next_outcome r.buffer now
    have q := o.inquiry h.asked.warranted h.order.sorted
    exact ⟨h.order.turn now, h.asked.goOn q o.warranted, h.pursued.goOn q,
      h.balanced.goOn h.asked q⟩

/-- The unit that comes next has been asked for exactly if its number is outstanding. -/
theorem Run.Asked.handedOut_mem_iff {r : Run} (h : r.Asked) {n : SeqNumber}
    (hnext : ∀ last, r.buffer.lastDelivered = some last →
      last.next = n ∧ n.raw.toNat = last.raw.toNat + 1) :
    n ∈ r.requests ↔ r.buffer.requested = true := by
  cases hl : r.buffer.lastDelivered with
  | none =>
    -- before the first delivery nothing is asked for
    refine iff_of_false (fun hmem => ?_) (fun hr => ?_)
    · obtain ⟨last, hlast, _⟩ := h.reached n hmem
      rw [hl] at hlast
      cases hlast
    · obtain ⟨last, hlast, _⟩ := h.warranted hr
      rw [hl] at hlast
      cases hlast
  | some last =>
    obtain ⟨rfl, hn⟩ := hnext last hl
    exact h.next_mem_iff hl hn

/-- A turn recovers a unit if it hands out one that was asked for. -/
theorem Run.Asked.recovered_eq {r : Run} {b' : ReorderBuffer} {t : Turn} (h : r.Asked)
    (q : Inquiry r.buffer b' t) : b'.counts.recovered = r.buffer.counts.recovered +
      if ∃ n ∈ r.requests, t.number? = some n then 1 else 0 := by
  cases q with
  | quiet _ _ _ hback | asks _ _ _ _ _ _ hback =>
    rw [if_neg (fun ⟨_, _, hn⟩ => nomatch hn)]
    exact hback
  | @handsOut d hnext hlast hclosed hasked hback =>
    have hiff : (∃ n ∈ r.requests, some d.unit.seq = some n) ↔ r.buffer.requested = true := by
      rw [← h.handedOut_mem_iff hnext]
      simp
    rw [hback]
    exact congrArg _ (if_congr hiff.symm rfl rfl)
  | @givesUp last stop d hl hn hgap hlast hclosed hasked hback =>
    rw [if_neg]
    · exact hback
    rintro ⟨n, hmem, heq⟩
    obtain rfl : d.unit.seq = n := Option.some.inj heq
    -- the unit stands behind the range, and what was asked for does not
    obtain ⟨last', hl', hle | ⟨_, hle⟩⟩ := h.reached _ hmem
    · cases hl.symm.trans hl'
      rw [SeqNumber.le_iff] at hle
      omega
    · cases hl.symm.trans hl'
      rw [← SeqNumber.toNat_inj] at hle
      omega

/-- **Every request is settled before the next one.** Whatever is put in and whenever units are
asked for: a turn that asks for a number asks for the one behind the last number delivered, which
goes on the wire as its low 16 bits; the numbers asked for increase; each request is outstanding and
nothing has happened since, or it was settled, in exactly one way, and before anything else
happened; a turn that hands out a unit asked for counts it as recovered, and no other does. So the
requests are, one for one, the recovered units, the ranges given up that start with a number asked
for, and the one that is outstanding. -/
theorem run_settles_requests (grace : Int) (calls : List Call) :
    let r := run grace calls
    (∀ now n, (r.buffer.next now).1.request? = some n →
        ∃ last, r.buffer.lastDelivered = some last ∧ n.raw.toNat = last.raw.toNat + 1 ∧
          n.wire.toNat = n.raw.toNat % 65536) ∧
      r.requests.Pairwise (· < ·) ∧
      (∀ before t after n, r.turns = before ++ t :: after → t.request? = some n →
        (r.buffer.outstanding? = some n ∧ ∀ s ∈ after, s.Silent) ∨ Settled n after) ∧
      (∀ now, (r.buffer.next now).2.counts.recovered = r.buffer.counts.recovered +
        if ∃ n ∈ r.requests, (r.buffer.next now).1.number? = some n then 1 else 0) ∧
      r.buffer.counts.requests = r.requests.length ∧
      r.buffer.counts.requests = r.buffer.counts.recovered +
        (r.losses.filter fun l => decide (l.1 ∈ r.requests)).length +
        if r.buffer.requested then 1 else 0 := by
  intro r
  have h : r.Settling := .run grace calls
  have hinquiry : ∀ now, Inquiry r.buffer (r.buffer.next now).2 (r.buffer.next now).1 :=
    fun now => (next_outcome r.buffer now).inquiry h.asked.warranted h.order.sorted
  refine ⟨fun now n hn => ?_, h.asked.increasing, fun before t after n hsplit hn => ?_,
    fun now => ?_, h.balanced.counted, h.balanced.balance⟩
  · obtain ⟨last, hl, hnext⟩ := (hinquiry now).next_of_request hn
    exact ⟨last, hl, hnext, n.toNat_wire⟩
  · exact (h.pursued before t after n hsplit hn).imp_right And.right
  · exact h.asked.recovered_eq (hinquiry now)

end Playout.ReorderBuffer
