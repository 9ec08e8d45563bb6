import Playout.Proofs.Reorder.Waiting

/-!
# What delivery finds in stock

Delivery has come to some number `e`. What was handed out before cannot come again, so only the
units from `e` on count, and a buffer is in good order if these are exactly the first units that
came with their numbers. `Stocked` says this, and that everything before `e` has come too. Units
that come keep it, and so do turns, as long as no gap is given up:

    insert   a unit joins the stock, unless its number is there or lies before `e`
    turn     a turn hands the unit with number `e` out if it has come, and nothing otherwise
-/

namespace Playout.ReorderBuffer

/-- Delivery began with number `a` and comes to `e` next, where `first? i` is the payload of the
first unit that came with number `i`. -/
structure Stocked (b : ReorderBuffer) (a e : Nat) (first? : Nat → Option (List UInt8)) : Prop where
  sorted : b.pending.Pairwise fun u v => u.seq < v.seq
  edge : (b.lastDelivered = none ∧ e = a) ∨
    ∃ last, b.lastDelivered = some last ∧ e = last.raw.toNat + 1
  began : a ≤ e
  low : ∀ u ∈ b.pending, a ≤ u.seq.raw.toNat
  /-- No number before `e` is missing. -/
  passed : ∀ i, a ≤ i → i < e → (first? i).isSome
  /-- From `e` on, what has come is what waits. -/
  stock : ∀ i bytes, e ≤ i →
    (first? i = some bytes ↔ ∃ u ∈ b.pending, u.seq.raw.toNat = i ∧ u.payload = bytes)

namespace Stocked

variable {b : ReorderBuffer} {a e : Nat} {first? : Nat → Option (List UInt8)}

/-- Before the first unit there is nothing in stock. -/
theorem init (grace : Int) (a : Nat) : Stocked { grace } a a fun _ => none where
  sorted := .nil
  edge := .inl ⟨rfl, rfl⟩
  began := Nat.le_refl a
  low := fun _ hu => nomatch hu
  passed := by omega
  stock := by simp

/-! ## Units that come -/

/-- A unit whose number waits is not the first one that came with it. -/
theorem stock_of_waiting (h : Stocked b a e first?) {u : MediaUnit}
    (hwaiting : ∃ v ∈ b.pending, v.seq = u.seq) {i : Nat} (hi : e ≤ i) :
    (first? i).or (if i = u.seq.raw.toNat then some u.payload else none) = first? i := by
  split
  · next heq =>
    obtain ⟨v, hv, hseq⟩ := hwaiting
    rw [(h.stock i v.payload hi).mpr ⟨v, hv, by rw [hseq, heq], rfl⟩, Option.some_or]
  · exact Option.or_none

/-- A unit with a new number joins those that wait. -/
theorem stock_of_new (h : Stocked b a e first?) {u : MediaUnit}
    (hnew : ¬ ∃ v ∈ b.pending, v.seq = u.seq) {i : Nat} (hi : e ≤ i) (bytes : List UInt8) :
    (first? i).or (if i = u.seq.raw.toNat then some u.payload else none) = some bytes ↔
      ∃ v ∈ (b.insert u).2.pending, v.seq.raw.toNat = i ∧ v.payload = bytes := by
  have hmem : ∀ v, v ∈ (b.insert u).2.pending ↔ v = u ∨ v ∈ b.pending :=
    fun v => mem_insert_of_new h.sorted hnew
  simp only [hmem, or_and_right, exists_or, exists_eq_left]
  by_cases heq : i = u.seq.raw.toNat
  · -- nothing with this number waits, so nothing with it came
    have hnone : ∀ v ∈ b.pending, v.seq.raw.toNat ≠ i := by
      intro v hv hseq
      exact hnew ⟨v, hv, SeqNumber.toNat_inj.mp (hseq.trans heq)⟩
    have hfirst : first? i = none := by
      refine Option.eq_none_iff_forall_ne_some.mpr fun bytes' hb => ?_
      obtain ⟨v, hv, hseq, -⟩ := (h.stock i bytes' hi).mp hb
      exact hnone v hv hseq
    rw [if_pos heq, hfirst, Option.none_or, Option.some_inj]
    constructor
    · intro hb
      exact .inl ⟨heq.symm, hb⟩
    · rintro (⟨-, hb⟩ | ⟨v, hv, hseq, -⟩)
      · exact hb
      · exact absurd hseq (hnone v hv)
  · rw [if_neg heq, Option.or_none, h.stock i bytes hi]
    exact ⟨.inr, fun hb => hb.resolve_left fun hu => heq hu.1.symm⟩

/-- A unit comes: it is the first one with its number, or a unit with its number came before. -/
theorem insert (h : Stocked b a e first?) {u : MediaUnit} (hu : a ≤ u.seq.raw.toNat) :
    Stocked (b.insert u).2 a e fun i =>
      (first? i).or (if i = u.seq.raw.toNat then some u.payload else none) where
  sorted := pairwise_insert h.sorted u
  edge := by
    rw [insert_lastDelivered]
    exact h.edge
  began := h.began
  low := by
    intro v hv
    rcases mem_of_mem_insert hv with rfl | hv
    · exact hu
    · exact h.low v hv
  passed := by
    intro i hlow hi
    rw [Option.isSome_or, h.passed i hlow hi, Bool.true_or]
  stock := by
    intro i bytes hi
    -- a copy of what waits is refused; anything else joins
    by_cases hwaiting : ∃ v ∈ b.pending, v.seq = u.seq
    · rw [insert_of_waiting h.sorted hwaiting, h.stock_of_waiting hwaiting hi]
      exact h.stock i bytes hi
    · exact h.stock_of_new hwaiting hi bytes

/-! ## Turns -/

/-- What is not stale are the units from `e` on. -/
theorem mem_dropStale (h : Stocked b a e first?) {u : MediaUnit} :
    u ∈ b.dropStale.pending ↔ u ∈ b.pending ∧ e ≤ u.seq.raw.toNat := by
  rw [dropStale_pending h.sorted, List.mem_filter]
  refine and_congr_right fun hu => ?_
  rcases h.edge with ⟨hl, rfl⟩ | ⟨last, hl, rfl⟩
  · exact iff_of_true (ahead_of_none hl u) (h.low u hu)
  · rw [ahead_iff hl, SeqNumber.lt_iff]
    rfl

/-- The unit in front has number `e`, if a unit with that number has come. -/
theorem front (h : Stocked b a e first?) {u : MediaUnit} {rest : List MediaUnit}
    (hp : b.dropStale.pending = u :: rest) (hcame : (first? e).isSome) : u.seq.raw.toNat = e := by
  obtain ⟨bytes, hbytes⟩ := Option.isSome_iff_exists.mp hcame
  obtain ⟨v, hv, hseq, -⟩ := (h.stock e bytes (Nat.le_refl e)).mp hbytes
  have hmem : v ∈ u :: rest := hp ▸ h.mem_dropStale.mpr ⟨hv, Nat.le_of_eq hseq.symm⟩
  have hlow : e ≤ u.seq.raw.toNat := (h.mem_dropStale.mp (hp ▸ List.mem_cons_self)).2
  have heq : v = u := eq_front (hp ▸ dropStale_sorted h.sorted) hmem
    (SeqNumber.le_iff.mpr (by omega))
  exact heq ▸ hseq

/-- Where the front lies behind a gap, nothing with number `e` has come. -/
theorem none_of_gap (h : Stocked b a e first?) {u : MediaUnit} {rest : List MediaUnit}
    {last : SeqNumber} (hp : b.dropStale.pending = u :: rest) (hl : b.lastDelivered = some last)
    (hgap : last.raw.toNat + 1 < u.seq.raw.toNat) : first? e = none := by
  rw [← Option.not_isSome_iff_eq_none]
  intro hcame
  have hseq := h.front hp hcame
  obtain ⟨hlast, -⟩ | ⟨last', hlast, rfl⟩ := h.edge
  · cases hl.symm.trans hlast
  · cases hl.symm.trans hlast
    omega

/-- Nothing leaves. -/
theorem waits (h : Stocked b a e first?) {b' : ReorderBuffer}
    (hp : b'.pending = b.dropStale.pending) (hl : b'.lastDelivered = b.lastDelivered) :
    Stocked b' a e first? ∧ ∀ u ∈ b'.pending, e ≤ u.seq.raw.toNat := by
  have hmem : ∀ u, u ∈ b'.pending ↔ u ∈ b.pending ∧ e ≤ u.seq.raw.toNat :=
    fun u => hp ▸ h.mem_dropStale
  refine ⟨?_, fun u hu => ((hmem u).mp hu).2⟩
  exact
    { sorted := hp ▸ dropStale_sorted h.sorted
      edge := hl ▸ h.edge
      began := h.began
      low := fun u hu => h.low u ((hmem u).mp hu).1
      passed := h.passed
      -- only units before `e` were dropped, and they do not count
      stock := by
        intro i bytes hi
        rw [h.stock i bytes hi]
        constructor
        · rintro ⟨u, hu, rfl, hbytes⟩
          exact ⟨u, (hmem u).mpr ⟨hu, hi⟩, rfl, hbytes⟩
        · rintro ⟨u, hu, hseq, hbytes⟩
          exact ⟨u, ((hmem u).mp hu).1, hseq, hbytes⟩ }

/-- The unit in front leaves. -/
theorem handsOut (h : Stocked b a e first?) {b' : ReorderBuffer} {u : MediaUnit}
    {rest : List MediaUnit} (hp : b.dropStale.pending = u :: rest) (hseq : u.seq.raw.toNat = e)
    (hp' : b'.pending = rest) (hl' : b'.lastDelivered = some u.seq) :
    first? e = some u.payload ∧ Stocked b' a (e + 1) first? := by
  subst hp'
  have hmem : ∀ v, v ∈ u :: b'.pending ↔ v ∈ b.pending ∧ e ≤ v.seq.raw.toNat :=
    fun v => hp ▸ h.mem_dropStale
  have hfirst : first? e = some u.payload := (h.stock e u.payload (Nat.le_refl e)).mpr
    ⟨u, ((hmem u).mp List.mem_cons_self).1, hseq, rfl⟩
  obtain ⟨hu, hrest⟩ := List.pairwise_cons.mp (hp ▸ dropStale_sorted h.sorted)
  refine ⟨hfirst, ?_⟩
  exact
    { sorted := hrest
      edge := .inr ⟨u.seq, hl', by rw [hseq]⟩
      began := Nat.le_succ_of_le h.began
      low := fun v hv => h.low v ((hmem v).mp (List.mem_cons_of_mem u hv)).1
      passed := by
        intro i hlow hi
        rcases Nat.lt_succ_iff_lt_or_eq.mp hi with hi | rfl
        · exact h.passed i hlow hi
        · rw [hfirst]
          rfl
      -- the units behind `u` are those from `e + 1` on
      stock := by
        intro i bytes hi
        rw [h.stock i bytes (Nat.le_of_succ_le hi)]
        -- with a number behind `e`, a unit that waits is not the one in front
        constructor
        · rintro ⟨v, hv, rfl, hbytes⟩
          rcases List.mem_cons.mp ((hmem v).mpr ⟨hv, Nat.le_of_succ_le hi⟩) with rfl | hv
          · omega
          · exact ⟨v, hv, rfl, hbytes⟩
        · rintro ⟨v, hv, hseq, hbytes⟩
          exact ⟨v, ((hmem v).mp (List.mem_cons_of_mem u hv)).1, hseq, hbytes⟩ }

/-- As long as the wait window is not over, a turn hands the unit with number `e` out if it has
come, and gives nothing up. -/
theorem turn (h : Stocked b a e first?) (ha : (first? a).isSome) {now : Int} {t : Turn}
    {b' : ReorderBuffer} (o : Outcome b now t b')
    (hsoon : ∀ opened, b.gapOpened = some opened → now - opened < b.grace) :
    t.lost? = none ∧
      (∀ d, t.delivery = some d →
        first? e = some d.unit.payload ∧ Stocked b' a (e + 1) first?) ∧
      (t.delivery = none →
        first? e = none ∧ Stocked b' a e first? ∧ ∀ u ∈ b'.pending, e ≤ u.seq.raw.toNat) := by
  cases o with
  | idle hp => -- nothing waits, so number `e` has not come
    refine ⟨rfl, nofun, fun _ => ⟨?_, h.waits rfl (dropStale_lastDelivered b)⟩⟩
    refine Option.eq_none_iff_forall_ne_some.mpr fun bytes hb => ?_
    obtain ⟨u, hu, hseq, -⟩ := (h.stock e bytes (Nat.le_refl e)).mp hb
    exact List.not_mem_nil (hp ▸ h.mem_dropStale.mpr ⟨hu, Nat.le_of_eq hseq.symm⟩)
  | @first u rest hp hl =>
    -- nothing was handed out before, so the row begins at `a`, which has come
    obtain ⟨-, rfl⟩ | ⟨last, hlast, -⟩ := h.edge
    · refine ⟨rfl, fun d hd => ?_, nofun⟩
      cases hd
      exact h.handsOut hp (h.front hp ha) rfl rfl
    · cases hl.symm.trans hlast
  | @inOrder u rest last hp hl hn =>
    obtain ⟨hlast, -⟩ | ⟨last', hlast, rfl⟩ := h.edge
    · cases hl.symm.trans hlast
    · cases hl.symm.trans hlast
      refine ⟨rfl, fun d hd => ?_, nofun⟩
      cases hd
      exact h.handsOut hp hn rfl rfl
  -- the front unit is not number `e`, and it is the least that waits
  | opens hp hl hgap | asks hp hl hgap | waits hp hl hgap =>
    refine ⟨rfl, nofun, fun _ => ⟨h.none_of_gap hp hl hgap, ?_⟩⟩
    exact h.waits rfl (dropStale_lastDelivered b)
  | skips hp hl hgap ho hlate => -- the window would have to be over
    rw [dropStale_gapOpened] at ho
    rw [dropStale_grace] at hlate
    have := hsoon _ ho
    omega

end Stocked

end Playout.ReorderBuffer
