import Mathlib.Data.List.Induction
import Playout.Proofs.Reorder.Delivery

/-!
# A gap stalls delivery for one grace window

The wait window of a buffer opens in a turn that brings no unit, stays where it is as long as no
unit leaves, and closes with the next unit. So when it is open, it was opened by a turn since which
nothing has been handed out:

    stalledSince_of_gapOpened : the window is open since `t₀` → delivery is stalled since `t₀`
    gapOpened_of_stalledSince : delivery is stalled since `t₀` → the window is open since `t₀`, or
                                since an earlier turn

The first of them bounds the wait from below and the second one from above.
-/

namespace Playout.ReorderBuffer

/-! ## The window in one turn -/

namespace Outcome

variable {b b' : ReorderBuffer} {now : Int} {t : Turn}

/-- A turn that brings no unit leaves the window open: where it was, or from now on. -/
theorem gapOpened_of_waits (o : Outcome b now t b') (h : t.delivery = none) :
    b'.gapOpened = some (b.gapOpened.getD now) := by
  cases o with
  | first | inOrder | skips => cases h
  | idle =>
    show some (b.dropStale.gapOpened.getD now) = _
    rw [dropStale_gapOpened]
  | opens hp hl hgap ho =>
    rw [dropStale_gapOpened] at ho
    rw [ho]
    rfl
  | asks hp hl hgap ho | waits hp hl hgap ho =>
    rw [dropStale_gapOpened] at ho
    show b.dropStale.gapOpened = _
    rw [dropStale_gapOpened, ho]
    rfl

/-- A turn that hands a unit out closes the window. -/
theorem gapOpened_of_handsOut (o : Outcome b now t b') (h : t.delivery.isSome) :
    b'.gapOpened = none := by
  cases o with
  | idle | opens | asks | waits => cases h
  | first | inOrder | skips => rfl

/-- A range is given up only when the window is as old as the grace time. -/
theorem late_of_lost (o : Outcome b now t b') (h : t.lost?.isSome) :
    ∃ opened, b.gapOpened = some opened ∧ b.grace ≤ now - opened := by
  cases o with
  | idle | first | inOrder | opens | asks | waits => cases h
  | skips hp hl hgap ho hlate =>
    rw [dropStale_gapOpened] at ho
    rw [dropStale_grace] at hlate
    exact ⟨_, ho, hlate⟩

/-- When the window is as old as the grace time, a unit ahead of delivery does not wait on. -/
theorem handsOut_of_late (o : Outcome b now t b')
    (hs : b.pending.Pairwise fun u v => u.seq < v.seq) {u : MediaUnit} (hu : u ∈ b.pending)
    (ha : b.ahead u = true) {opened : Int} (ho : b.gapOpened = some opened)
    (hlate : b.grace ≤ now - opened) : t.delivery.isSome := by
  cases o with
  | first | inOrder | skips => rfl
  | idle hp => -- there is something to hand out, the unit `u`
    rw [dropStale_pending hs] at hp
    exact absurd (List.mem_filter.mpr ⟨hu, ha⟩) (hp ▸ List.not_mem_nil)
  | opens hp hl hgap hclosed => -- the window is open already
    rw [dropStale_gapOpened, ho] at hclosed
    cases hclosed
  -- the window is too old to wait on
  | asks hp hl hgap hopen hearly | waits hp hl hgap hopen hearly =>
    rw [dropStale_gapOpened, ho] at hopen
    cases hopen
    rw [dropStale_grace] at hearly
    omega

/-- No turn changes the grace time. -/
theorem grace_eq (o : Outcome b now t b') : b'.grace = b.grace := by
  cases o <;> exact dropStale_grace b

end Outcome

/-! ## Runs call by call -/

/-- The clock reading of a call that asks for a unit. -/
def Call.time? : Call → Option Int
  | .insert _ => none
  | .next now => some now

/-- The clock readings of the calls, in their order. -/
def times (calls : List Call) : List Int := calls.filterMap Call.time?

/-- The readings of calls and of more calls are those of both. -/
theorem times_append (calls more : List Call) : times (calls ++ more) = times calls ++ times more :=
  List.filterMap_append

@[simp] theorem Run.deliveries_offer (r : Run) (u : MediaUnit) :
    (r.offer u).deliveries = r.deliveries := by
  unfold deliveries
  rw [offer_turns]

/-- The grace time of a run is the one that it began with. -/
theorem grace_run (grace : Int) (calls : List Call) : (run grace calls).buffer.grace = grace :=
  Run.foldl_induction calls (motive := fun r => r.buffer.grace = grace) rfl
    (fun r u h => by rw [Run.offer_buffer, insert_grace]; exact h)
    (fun r now h => (next_outcome r.buffer now).grace_eq.trans h)

/-- What a call hands out comes behind what was handed out before. -/
theorem Run.deliveries_perform (r : Run) (c : Call) :
    ∃ more, (r.perform c).deliveries = r.deliveries ++ more := by
  cases c with
  | insert u => exact ⟨[], (deliveries_offer r u).trans (List.append_nil _).symm⟩
  | next now => exact ⟨_, deliveries_turn r now⟩

/-- More calls hand out more units, and take none back. -/
theorem deliveries_append (grace : Int) (calls mid : List Call) :
    ∃ more, (run grace (calls ++ mid)).deliveries = (run grace calls).deliveries ++ more := by
  induction mid using List.reverseRecOn with
  | nil => exact ⟨[], by rw [List.append_nil, List.append_nil]⟩
  | append_singleton mid c ih =>
    obtain ⟨more, hmore⟩ := ih
    obtain ⟨last, hlast⟩ := (run grace (calls ++ mid)).deliveries_perform c
    rw [← List.append_assoc, run_concat]
    exact ⟨more ++ last, by rw [hlast, hmore, List.append_assoc]⟩

/-! ## Stalls -/

/-- After the calls, delivery is stalled since `t₀`: a turn at that time brought no unit, and no
unit has been handed out since. -/
def StalledSince (grace : Int) (calls : List Call) (t₀ : Int) : Prop :=
  ∃ before after, calls = before ++ .next t₀ :: after ∧
    ((run grace before).buffer.next t₀).1.delivery = none ∧
    (run grace calls).deliveries = (run grace before).deliveries

namespace StalledSince

variable {grace t₀ : Int} {calls : List Call}

/-- A stall begins at the reading of a call. -/
theorem mem_times (h : StalledSince grace calls t₀) : t₀ ∈ times calls := by
  obtain ⟨before, after, rfl, _⟩ := h
  exact List.mem_filterMap.mpr ⟨.next t₀, by simp, rfl⟩

/-- A turn that brings no unit begins a stall. -/
theorem begins {now : Int} (h : ((run grace calls).buffer.next now).1.delivery = none) :
    StalledSince grace (calls ++ [.next now]) now := by
  refine ⟨calls, [], rfl, h, ?_⟩
  rw [run_concat]
  show ((run grace calls).turn now).deliveries = _
  rw [Run.deliveries_turn, h]
  exact List.append_nil _

/-- A call that hands nothing out goes on with a stall. -/
theorem goesOn (h : StalledSince grace calls t₀) {c : Call}
    (hsame : ((run grace calls).perform c).deliveries = (run grace calls).deliveries) :
    StalledSince grace (calls ++ [c]) t₀ := by
  obtain ⟨before, after, rfl, hnone, hstill⟩ := h
  refine ⟨before, after ++ [c], ?_, hnone, ?_⟩
  · rw [List.append_assoc, List.cons_append]
  · rw [run_concat, hsame, hstill]

/-- A stall after one more call begins with that call, or goes on. -/
theorem of_concat {c : Call} (h : StalledSince grace (calls ++ [c]) t₀) :
    (c = .next t₀ ∧ ((run grace calls).buffer.next t₀).1.delivery = none) ∨
      (StalledSince grace calls t₀ ∧
        ((run grace calls).perform c).deliveries = (run grace calls).deliveries) := by
  obtain ⟨before, after, hsplit, hnone, hstill⟩ := h
  rcases List.eq_nil_or_concat after with rfl | ⟨after, x, rfl⟩
  · obtain ⟨rfl, hc⟩ := List.append_inj' hsplit rfl
    exact .inl ⟨List.singleton_inj.mp hc, hnone⟩
  · rw [List.concat_eq_append, ← List.cons_append, ← List.append_assoc] at hsplit
    obtain ⟨rfl, hc⟩ := List.append_inj' hsplit rfl
    rw [run_concat] at hstill
    -- nothing was handed out over the whole stretch, so nothing by its last call
    obtain ⟨more, hmore⟩ := deliveries_append grace before (.next t₀ :: after)
    obtain ⟨last, hlast⟩ := (run grace (before ++ .next t₀ :: after)).deliveries_perform c
    have hnil : more ++ last = [] := by
      rw [hlast, hmore, List.append_assoc] at hstill
      exact List.append_right_eq_self.mp hstill
    obtain ⟨rfl, rfl⟩ := List.append_eq_nil_iff.mp hnil
    rw [List.append_nil] at hmore hlast
    exact .inr ⟨⟨before, after, rfl, hnone, hmore⟩, hlast⟩

end StalledSince

/-- An open window was opened by a turn since which nothing has been handed out. -/
theorem stalledSince_of_gapOpened (grace : Int) (calls : List Call) {opened : Int}
    (h : (run grace calls).buffer.gapOpened = some opened) : StalledSince grace calls opened := by
  induction calls using List.reverseRecOn generalizing opened with
  | nil => cases h
  | append_singleton calls c ih =>
    rw [run_concat] at h
    cases c with
    | insert u =>
      have h' : (run grace calls).buffer.gapOpened = some opened := by
        rw [← h]
        show _ = ((run grace calls).offer u).buffer.gapOpened
        rw [Run.offer_buffer, insert_gapOpened]
      exact (ih h').goesOn (Run.deliveries_offer _ u)
    | next now =>
      have o := next_outcome (run grace calls).buffer now
      cases hd : ((run grace calls).buffer.next now).1.delivery with
      | some d =>
        have hclosed := o.gapOpened_of_handsOut (by rw [hd]; rfl)
        exact absurd (h.symm.trans hclosed) nofun
      | none =>
        -- the turn has brought no unit: it has opened the window, or found it open
        have hopened := Option.some.inj (h.symm.trans (o.gapOpened_of_waits hd))
        cases hbefore : (run grace calls).buffer.gapOpened with
        | none =>
          rw [hbefore] at hopened
          exact hopened ▸ StalledSince.begins hd
        | some opened' =>
          rw [hbefore] at hopened
          refine (ih (hopened ▸ hbefore)).goesOn ?_
          show ((run grace calls).turn now).deliveries = _
          rw [Run.deliveries_turn, hd]
          exact List.append_nil _

/-- While delivery is stalled since `t₀`, the window is open, and was opened no later than that. -/
theorem gapOpened_of_stalledSince (grace : Int) (calls : List Call) {t₀ : Int}
    (hmono : (times calls).Pairwise (· ≤ ·)) (h : StalledSince grace calls t₀) :
    ∃ opened, (run grace calls).buffer.gapOpened = some opened ∧ opened ≤ t₀ := by
  induction calls using List.reverseRecOn with
  | nil =>
    obtain ⟨before, after, hsplit, _⟩ := h
    cases before <;> cases hsplit
  | append_singleton calls c ih =>
    obtain ⟨hbefore, -, hlast⟩ : (times calls).Pairwise (· ≤ ·) ∧ (times [c]).Pairwise (· ≤ ·) ∧
        ∀ s ∈ times calls, ∀ t ∈ times [c], s ≤ t :=
      List.pairwise_append.mp (times_append calls [c] ▸ hmono)
    rw [run_concat]
    rcases h.of_concat with ⟨rfl, hnone⟩ | ⟨hstalled, hsame⟩
    -- the stall begins with this call, and an open window was opened at a reading before it
    · refine ⟨_, (next_outcome _ t₀).gapOpened_of_waits hnone, ?_⟩
      cases hopen : (run grace calls).buffer.gapOpened with
      | none => exact Int.le_refl t₀
      | some opened =>
        exact hlast _ (stalledSince_of_gapOpened grace calls hopen).mem_times _ List.mem_cons_self
    -- the stall goes on, and so does the window
    · obtain ⟨opened, hopen, hle⟩ := ih hbefore hstalled
      refine ⟨opened, ?_, hle⟩
      cases c with
      | insert u =>
        show ((run grace calls).offer u).buffer.gapOpened = _
        rw [Run.offer_buffer, insert_gapOpened, hopen]
      | next now =>
        have hnone : ((run grace calls).buffer.next now).1.delivery = none := by
          have hnil := (Run.deliveries_turn (run grace calls) now).symm.trans hsame
          exact Option.toList_eq_nil_iff.mp (List.append_right_eq_self.mp hnil)
        rw [← Option.getD_some (a := opened) (b := now), ← hopen]
        exact (next_outcome _ now).gapOpened_of_waits hnone

/-! ## One grace window -/

/-- **A gap stalls delivery for one grace window, no less and no more.** Let a turn at time `t`
follow on any calls whose clock readings do not decrease. If it gives a range up, then delivery was
stalled by a turn at least the grace time ago. And if delivery was stalled by a turn at least the
grace time ago, while a unit ahead of delivery waits now, then it hands a unit out. -/
theorem next_waits_one_grace_window (grace : Int) (calls : List Call) (t : Int)
    (hmono : (times (calls ++ [.next t])).Pairwise (· ≤ ·)) :
    let b := (run grace calls).buffer
    ((b.next t).1.lost?.isSome → ∃ t₀, StalledSince grace calls t₀ ∧ grace ≤ t - t₀) ∧
      ∀ t₀, StalledSince grace calls t₀ → t₀ + grace ≤ t →
        (∃ u ∈ b.pending, b.ahead u = true) → (b.next t).1.delivery.isSome := by
  intro b
  have o : Outcome b t (b.next t).1 (b.next t).2 := next_outcome b t
  have hgrace : b.grace = grace := grace_run grace calls
  refine ⟨fun hlost => ?_, fun t₀ hstalled hdue ⟨u, hu, ha⟩ => ?_⟩
  -- a range is given up only when the window is over, and the window opened with the stall
  · obtain ⟨opened, hopen, hlate⟩ := o.late_of_lost hlost
    exact ⟨opened, stalledSince_of_gapOpened grace calls hopen, hgrace ▸ hlate⟩
  -- the window is open since the stall or longer, as the clock does not go back
  · have hbefore : (times calls).Pairwise (· ≤ ·) :=
      (List.pairwise_append.mp (times_append calls [.next t] ▸ hmono)).1
    obtain ⟨opened, hopen, hle⟩ := gapOpened_of_stalledSince grace calls hbefore hstalled
    exact o.handsOut_of_late (InOrder.run grace calls).sorted hu ha hopen (by omega)

/-- The gap between numbers 1 and 3, seen at time 0, is given up at the end of the window. -/
theorem gap_given_up_after_window :
    let calls : List Call :=
      [.insert ⟨⟨1⟩, [], 0, 0⟩, .next 0, .insert ⟨⟨3⟩, [], 0, 0⟩, .next 0]
    let b := (run 50 calls).buffer
    (times (calls ++ [.next 50])).Pairwise (· ≤ ·) ∧
      (b.next 50).1.lost? = some (⟨2⟩, ⟨2⟩) ∧ (∃ t₀, StalledSince 50 calls t₀ ∧ 50 ≤ 50 - t₀) ∧
      (b.next 50).1.delivery.isSome := by
  intro calls b
  have hmono : (times (calls ++ [.next 50])).Pairwise (· ≤ ·) := by decide
  have hstalled : StalledSince 50 calls 0 :=
    ⟨calls.take 3, [], by decide, by decide, by decide⟩
  obtain ⟨hearly, hdue⟩ := next_waits_one_grace_window 50 calls 50 hmono
  refine ⟨hmono, by decide, hearly (by decide), hdue 0 hstalled (by decide) ?_⟩
  exact ⟨⟨⟨3⟩, [], 0, 0⟩, by decide, by decide⟩

end Playout.ReorderBuffer
