import Mathlib.Algebra.Order.BigOperators.Group.List
import Mathlib.Tactic.Linarith
import Playout.Clock.Estimate
import Playout.Proofs.Ntp.Units

/-!
# What a batch is combined into

`Ranking es s` says that `s` is the batch `es` in the order of the round trips, where equals stay as
they were. There is one such order, and it is `ranked es`. The combined estimate is the first of it,
moved by as much as its offset is changed to the mean of the best:

    bestOf_of_ranking : bestOf es = some (combined best offset)

Its offset is a mean of offsets and lies between them, so it never leaves the range of a word. Where
all round trips are different, the order in which the exchanges were made is of no account, because
it leaves no trace in the ranking.
-/

namespace Playout

open Ntp

/-! ## Means -/

/-- A mean that is rounded toward zero is not below a lower bound. -/
theorem le_tdiv_of_mul_le {low sum count : Int} (hcount : 0 < count) (h : low * count ≤ sum) :
    low ≤ sum.tdiv count := by
  have hdivision := Int.mul_tdiv_add_tmod sum count
  have hrest : sum.tmod count < count := Int.tmod_lt_of_pos sum hcount
  have hlt : low < sum.tdiv count + 1 := by
    apply lt_of_mul_lt_mul_right _ hcount.le
    linarith
  omega

/-- Nor is it above an upper bound. -/
theorem tdiv_le_of_le_mul {high sum count : Int} (hcount : 0 < count) (h : sum ≤ high * count) :
    sum.tdiv count ≤ high := by
  have hbelow : -high ≤ (-sum).tdiv count := le_tdiv_of_mul_le hcount (by linarith)
  rw [Int.neg_tdiv] at hbelow
  omega

namespace Ntp.Interval

/-- The units of all the spans. -/
def totalUnits (ds : List Interval) : Int := (ds.map units).sum

theorem mul_length_le_totalUnits {low : Int} {ds : List Interval} (h : ∀ d ∈ ds, low ≤ d.units) :
    low * ds.length ≤ totalUnits ds := by
  have hsum := List.card_nsmul_le_sum (ds.map units) low (by simpa using h)
  rwa [List.length_map, nsmul_eq_mul, mul_comm] at hsum

theorem totalUnits_le_mul_length {high : Int} {ds : List Interval}
    (h : ∀ d ∈ ds, d.units ≤ high) : totalUnits ds ≤ high * ds.length := by
  have hsum := List.sum_le_card_nsmul (ds.map units) high (by simpa using h)
  rwa [List.length_map, nsmul_eq_mul, mul_comm] at hsum

section Mean

variable {ds : List Interval} (hne : ds ≠ [])
include hne

theorem length_pos_of_ne : (0 : Int) < ds.length := by
  exact_mod_cast List.length_pos_iff.mpr hne

theorem le_meanUnits {low : Int} (h : ∀ d ∈ ds, low ≤ d.units) :
    low ≤ (totalUnits ds).tdiv ds.length :=
  le_tdiv_of_mul_le (length_pos_of_ne hne) (mul_length_le_totalUnits h)

theorem meanUnits_le {high : Int} (h : ∀ d ∈ ds, d.units ≤ high) :
    (totalUnits ds).tdiv ds.length ≤ high :=
  tdiv_le_of_le_mul (length_pos_of_ne hne) (totalUnits_le_mul_length h)

/-- The mean is in the range of a word, because all the spans are. -/
theorem units_mean : ∃ m, mean ds = some m ∧ m.units = (totalUnits ds).tdiv ds.length := by
  have hmean : mean ds = some (ofUnits ((totalUnits ds).tdiv ds.length)) := by
    rw [mean, if_neg (by simpa using hne), totalUnits, List.sum, List.foldr_map]
    rfl
  refine ⟨_, hmean, units_ofUnits_of_representable ⟨?_, ?_⟩⟩
  · exact le_meanUnits hne fun d _ => d.representable_units.1
  · have hhigh := meanUnits_le hne fun d _ => Int.le_sub_one_of_lt d.representable_units.2
    omega

/-- Some span is not longer than the mean. -/
theorem exists_le_meanUnits : ∃ d ∈ ds, d.units ≤ (totalUnits ds).tdiv ds.length := by
  by_contra hnone
  push Not at hnone
  have habove := le_meanUnits hne fun d hd => Int.add_one_le_of_lt (hnone d hd)
  omega

/-- Some span is not shorter than the mean. -/
theorem exists_meanUnits_le : ∃ d ∈ ds, (totalUnits ds).tdiv ds.length ≤ d.units := by
  by_contra hnone
  push Not at hnone
  have hbelow := meanUnits_le hne fun d hd => Int.le_sub_one_of_lt (hnone d hd)
  omega

end Mean

end Ntp.Interval

namespace Clock.Estimate

/-! ## Rankings -/

/-- `s` is the batch with the shortest round trips first, and equals stay in their order. -/
structure Ranking (es s : List Estimate) : Prop where
  perm : s.Perm es
  sorted : s.Pairwise fun a b => a.roundTrip ≤ b.roundTrip
  stable : ∀ r, s.filter (·.roundTrip = r) = es.filter (·.roundTrip = r)

theorem roundTrip_eq_of_le_of_le {a b : Estimate} (h : a.roundTrip ≤ b.roundTrip)
    (h' : b.roundTrip ≤ a.roundTrip) : a.roundTrip = b.roundTrip :=
  congrArg Interval.mk (Int64.le_antisymm h h')

/-- Rows in order with the same estimates of each round trip are the same. -/
theorem eq_of_sorted {s s' : List Estimate}
    (hsorted : s.Pairwise fun a b => a.roundTrip ≤ b.roundTrip)
    (hsorted' : s'.Pairwise fun a b => a.roundTrip ≤ b.roundTrip)
    (h : ∀ r, s.filter (·.roundTrip = r) = s'.filter (·.roundTrip = r)) : s = s' := by
  induction s generalizing s' with
  | nil =>
    cases s' with
    | nil => rfl
    | cons b s' => simpa using h b.roundTrip
  | cons a s ih =>
    cases s' with
    | nil => simpa using h a.roundTrip
    | cons b s' =>
      obtain ⟨hfirst, hrest⟩ := List.pairwise_cons.mp hsorted
      obtain ⟨hfirst', hrest'⟩ := List.pairwise_cons.mp hsorted'
      -- each of the two is somewhere in the other row, so that their round trips are equal
      have hround : a.roundTrip = b.roundTrip := by
        have ha : a ∈ b :: s' := by
          have hmem : a ∈ (a :: s).filter (·.roundTrip = a.roundTrip) := by simp
          rw [h] at hmem
          exact List.mem_of_mem_filter hmem
        have hb : b ∈ a :: s := by
          have hmem : b ∈ (b :: s').filter (·.roundTrip = b.roundTrip) := by simp
          rw [← h] at hmem
          exact List.mem_of_mem_filter hmem
        rcases List.mem_cons.mp ha with rfl | ha
        · rfl
        · rcases List.mem_cons.mp hb with rfl | hb
          · rfl
          · exact roundTrip_eq_of_le_of_le (hfirst b hb) (hfirst' a ha)
      have hheads := h a.roundTrip
      rw [List.filter_cons_of_pos (by simp), List.filter_cons_of_pos (by simp [hround])] at hheads
      obtain ⟨rfl, -⟩ := List.cons.inj hheads
      refine congrArg (a :: ·) (ih hrest hrest' fun r => ?_)
      have hr := h r
      simp only [List.filter_cons] at hr
      split at hr
      · exact (List.cons.inj hr).2
      · exact hr

theorem Ranking.unique {es s s' : List Estimate} (h : Ranking es s) (h' : Ranking es s') :
    s = s' :=
  eq_of_sorted h.sorted h'.sorted fun r => (h.stable r).trans (h'.stable r).symm

/-- Sorting ranks a batch. -/
theorem ranking_ranked (es : List Estimate) : Ranking es (ranked es) := by
  -- the comparison that is sorted by is a total preorder
  have htrans (a b c : Estimate) : decide (a.roundTrip ≤ b.roundTrip) →
      decide (b.roundTrip ≤ c.roundTrip) → decide (a.roundTrip ≤ c.roundTrip) := by
    simp only [decide_eq_true_eq]
    exact Int64.le_trans
  have htotal (a b : Estimate) :
      decide (a.roundTrip ≤ b.roundTrip) || decide (b.roundTrip ≤ a.roundTrip) := by
    simp only [Bool.or_eq_true, decide_eq_true_eq]
    exact Int64.le_total _ _
  have hperm : (ranked es).Perm es := List.mergeSort_perm es _
  refine ⟨hperm, ?_, fun r => ?_⟩
  · exact (List.pairwise_mergeSort htrans htotal es).imp of_decide_eq_true
  · -- the estimates of one round trip are in order as they are, so that sorting keeps their row
    have hequal : (es.filter (·.roundTrip = r)).Pairwise fun a b =>
        decide (a.roundTrip ≤ b.roundTrip) := by
      refine List.pairwise_of_forall_mem_list fun a ha b hb => decide_eq_true ?_
      rw [of_decide_eq_true (List.mem_filter.mp ha).2, of_decide_eq_true (List.mem_filter.mp hb).2]
      exact Int64.le_refl _
    have hsublist := List.sublist_mergeSort htrans htotal hequal List.filter_sublist
    have hkept := hsublist.filter (·.roundTrip = r)
    simp only [List.filter_filter, Bool.and_self] at hkept
    exact (hkept.eq_of_length (hperm.filter _).length_eq.symm).symm

/-- Where no two round trips are equal, the row that the batch came in leaves no trace. -/
theorem Ranking.of_perm {es es' s : List Estimate} (h : Ranking es s) (hperm : es'.Perm es)
    (hdistinct : es.Pairwise fun a b => a.roundTrip ≠ b.roundTrip) : Ranking es' s := by
  refine ⟨h.perm.trans hperm.symm, h.sorted, fun r => ?_⟩
  rw [h.stable]
  have hfilter : (es'.filter (·.roundTrip = r)).Perm (es.filter (·.roundTrip = r)) :=
    hperm.filter _
  have hrow : (es.filter (·.roundTrip = r)).Pairwise fun a b => a.roundTrip ≠ b.roundTrip :=
    hdistinct.sublist List.filter_sublist
  have hall : ∀ e ∈ es.filter (·.roundTrip = r), e.roundTrip = r := fun e he =>
    of_decide_eq_true (List.mem_filter.mp he).2
  -- so there is at most one estimate of this round trip
  cases hes : es.filter (·.roundTrip = r) with
  | nil =>
    rw [hes] at hfilter
    exact hfilter.eq_nil.symm
  | cons e rest =>
    rw [hes] at hfilter hrow hall
    cases rest with
    | nil => exact hfilter.eq_singleton.symm
    | cons e' rest =>
      have hne := (List.pairwise_cons.mp hrow).1 e' List.mem_cons_self
      exact absurd ((hall e (by simp)).trans (hall e' (by simp)).symm) hne

/-! ## The combined estimate -/

/-- The offsets of the first third of a row, and of one at least. -/
def firstThird (s : List Estimate) : List Interval :=
  (s.take (max 1 (s.length / 3))).map (·.offset)

theorem length_firstThird {s : List Estimate} (hne : s ≠ []) :
    (firstThird s).length = max 1 (s.length / 3) := by
  have hpos := List.length_pos_iff.mpr hne
  rw [firstThird, List.length_map, List.length_take]
  omega

theorem firstThird_ne_nil {s : List Estimate} (hne : s ≠ []) : firstThird s ≠ [] := by
  apply List.length_pos_iff.mp
  rw [length_firstThird hne]
  omega

/-- The best estimate, with another offset. -/
def withOffset (best : Estimate) (offset : Interval) : Estimate :=
  { best with remote := best.remote + (offset - best.offset), offset }

/-- The remote moment less the offset stays where it is, in words that wrap around. -/
theorem withOffset_local (best : Estimate) (offset : Interval) :
    (best.withOffset offset).remote.raw - (best.withOffset offset).offset.raw.toUInt64 =
      best.remote.raw - best.offset.raw.toUInt64 := by
  show best.remote.raw + (offset.raw - best.offset.raw).toUInt64 - offset.raw.toUInt64 = _
  rw [Int64.toUInt64_sub]
  grind

theorem bestOf_of_ranking {es rest : List Estimate} {best : Estimate}
    (h : Ranking es (best :: rest)) {offset : Interval}
    (hoffset : Interval.mean (firstThird (best :: rest)) = some offset) :
    bestOf es = some (best.withOffset offset) := by
  have hranked : ranked es = best :: rest := (ranking_ranked es).unique h
  have hkept : kept es.length = max 1 ((best :: rest).length / 3) := by
    rw [h.perm.length_eq]
    exact Nat.max_comm _ _
  unfold bestOf
  rw [hranked]
  dsimp only
  rw [hkept, ← firstThird, hoffset]
  rfl

theorem bestOf_eq_of_ranking {es es' s : List Estimate} (h : Ranking es s) (h' : Ranking es' s) :
    bestOf es = bestOf es' := by
  have hranked : ranked es = ranked es' :=
    ((ranking_ranked es).unique h).trans ((ranking_ranked es').unique h').symm
  have hlength : es.length = es'.length := h.perm.length_eq.symm.trans h'.perm.length_eq
  unfold bestOf
  rw [hranked, hlength]

/-- **What a batch is combined into.** In a batch that is not empty, let `s` be the batch in the
order of the round trips. The combined estimate has the reading and the round trip of the first of
`s`. Its offset is the mean of the offsets of the first third of `s`, and of one at least, rounded
toward zero, and lies between them. Its remote moment is as far from its offset as that of the first
of `s`. If all round trips are different, it does not matter in which order the exchanges were
made. -/
theorem bestOf_combines_first_third (es : List Estimate) (hne : es ≠ []) :
    ∃ s best combined, (∀ s', Ranking es s' ↔ s' = s) ∧ s.head? = some best ∧
      bestOf es = some combined ∧
      combined.reading = best.reading ∧ combined.roundTrip = best.roundTrip ∧
      (firstThird s).length = max 1 (es.length / 3) ∧
      combined.offset.units =
        ((firstThird s).map Interval.units).sum.tdiv (max 1 (es.length / 3) : Nat) ∧
      (∃ low ∈ firstThird s, low.units ≤ combined.offset.units) ∧
      (∃ high ∈ firstThird s, combined.offset.units ≤ high.units) ∧
      combined.remote.raw - combined.offset.raw.toUInt64 =
        best.remote.raw - best.offset.raw.toUInt64 ∧
      ((es.Pairwise fun a b => a.roundTrip ≠ b.roundTrip) →
        ∀ es' : List Estimate, es'.Perm es → bestOf es' = some combined) := by
  have hranking := ranking_ranked es
  have hlength : (ranked es).length = es.length := hranking.perm.length_eq
  have hsome : ranked es ≠ [] := by
    rw [← List.length_pos_iff, hlength]
    exact List.length_pos_iff.mpr hne
  have hthird := length_firstThird hsome
  have hoffsets := firstThird_ne_nil hsome
  rw [hlength] at hthird
  cases hranked : ranked es with
  | nil => exact absurd hranked hsome
  | cons best rest => -- the offset is the mean of the first third, and lies between two of its own
    rw [hranked] at hranking hthird hoffsets
    obtain ⟨offset, hmean, hunits⟩ := Interval.units_mean hoffsets
    have hlow := Interval.exists_le_meanUnits hoffsets
    have hhigh := Interval.exists_meanUnits_le hoffsets
    rw [← hunits] at hlow hhigh
    rw [hthird] at hunits
    have hbest := bestOf_of_ranking hranking hmean
    refine ⟨best :: rest, best, best.withOffset offset, ?_, rfl, hbest, rfl, rfl, hthird, hunits,
      hlow, hhigh, best.withOffset_local offset, ?_⟩
    -- there is one such order, and permuting the batch leaves it as it is
    · intro s'
      constructor
      · exact fun h => h.unique hranking
      · rintro rfl
        exact hranking
    · intro hdistinct es' hperm
      rw [← hbest]
      exact bestOf_eq_of_ranking (hranking.of_perm hperm hdistinct) hranking

/-- An estimate with a round trip and an offset in units, which show where it comes from. -/
def sampled (reading roundTrip offset : Int) : Estimate :=
  ⟨⟨0⟩, reading, .ofUnits roundTrip, .ofUnits offset⟩

/-- A batch whose best two estimates, at 3 and 5, are 9 and 18 units behind. -/
def spread : List Estimate :=
  [sampled 1 6 7, sampled 2 12 3, sampled 3 2 (-9), sampled 4 10 50, sampled 5 4 (-18),
    sampled 6 8 40]

/-- The same in the order of the round trips. -/
def spreadInOrder : List Estimate :=
  [sampled 3 2 (-9), sampled 5 4 (-18), sampled 1 6 7, sampled 6 8 40, sampled 4 10 50,
    sampled 2 12 3]

/-- The mean of the two is 13 and a half, which is rounded toward zero. -/
theorem spread_combined :
    spread ≠ [] ∧ (spread.Pairwise fun a b => a.roundTrip ≠ b.roundTrip) ∧
      ∃ combined, bestOf spread = some combined ∧ combined.reading = 3 ∧
        combined.roundTrip.units = 2 ∧ combined.offset.units = -13 ∧
        ∀ es' : List Estimate, es'.Perm spread → bestOf es' = some combined := by
  have hne : spread ≠ [] := List.cons_ne_nil _ _
  have hdistinct : spread.Pairwise fun a b => a.roundTrip ≠ b.roundTrip := by decide +kernel
  -- sorting need not be run: the row in order ranks itself, and permuting does not matter
  have hinOrder : Ranking spreadInOrder spreadInOrder :=
    ⟨.refl _, by decide +kernel, fun _ => rfl⟩
  have hranking : Ranking spread spreadInOrder :=
    hinOrder.of_perm (by decide +kernel) (by decide +kernel)
  obtain ⟨s, best, combined, hs, hhead, hbest, hreading, hround, -, hoffset, -, -, -, hany⟩ :=
    bestOf_combines_first_third spread hne
  obtain rfl := (hs spreadInOrder).mp hranking
  cases hhead
  refine ⟨hne, hdistinct, combined, hbest, hreading, ?_, ?_, hany hdistinct⟩
  · rw [hround]
    decide +kernel
  · rw [hoffset]
    decide +kernel

end Clock.Estimate

end Playout
