import Mathlib.Data.List.Induction
import Playout.Proofs.Reorder.Inquiry

/-!
# What a buffer says of its contents is true

Beside the row of units that wait, a buffer keeps figures of it: the bytes that wait, how many units
met which fate, and whether the missing unit has been asked for. Four operations change the row,
each in its own way, and each of them keeps the figures in step with it (`Sound`):

    pendingBytes = totalSize pending          Sound.bytes
    units given  = delivered + duplicates + stale + waiting      accounted
    requested    → a window is open, and a unit waits behind the gap

The bytes are counted down unit by unit. The number of bytes never falls short, because units leave
at the front of a row whose bytes are all counted (`Outcome.leaving`).
-/

namespace Playout.ReorderBuffer

/-! ## The bytes of a row -/

@[simp] theorem totalSize_nil : totalSize [] = 0 := rfl

@[simp] theorem totalSize_cons (u : MediaUnit) (rest : List MediaUnit) :
    totalSize (u :: rest) = u.size + totalSize rest := rfl

@[simp] theorem totalSize_append (units more : List MediaUnit) :
    totalSize (units ++ more) = totalSize units + totalSize more := by
  induction units with
  | nil => rw [List.nil_append, totalSize_nil, Nat.zero_add]
  | cons u rest ih => rw [List.cons_append, totalSize_cons, totalSize_cons, ih, Nat.add_assoc]

/-- The bytes of a row do not depend on its order. -/
theorem totalSize_perm {units units' : List MediaUnit} (h : units.Perm units') :
    totalSize units = totalSize units' :=
  h.foldr_eq' (fun u _ v _ n => Nat.add_left_comm v.size u.size n) 0

/-- The bytes that are left when units leave one after the other, if there are as many. -/
def bytesWithout? (bytes : Nat) : List MediaUnit → Option Nat
  | [] => some bytes
  | u :: rest => if u.size ≤ bytes then bytesWithout? (bytes - u.size) rest else none

/-- Units leave a row whose bytes are counted without the count falling short. -/
theorem bytesWithout?_add (gone : List MediaUnit) (bytes : Nat) :
    bytesWithout? (totalSize gone + bytes) gone = some bytes := by
  induction gone with
  | nil => rw [totalSize_nil, Nat.zero_add, bytesWithout?]
  | cons u rest ih =>
    have hbytes : totalSize (u :: rest) + bytes - u.size = totalSize rest + bytes := by
      rw [totalSize_cons]
      omega
    rw [bytesWithout?, if_pos (by rw [totalSize_cons]; omega), hbytes, ih]

/-! ## The place of a unit, from the end -/

/-- `place`, for a row that is given from its end: units mostly come in order, and find their place
sooner there. -/
def placeBehind (u : MediaUnit) : List MediaUnit → Option (List MediaUnit)
  | [] => some [u]
  | v :: before =>
    if v.seq = u.seq then none
    else if v.seq < u.seq then some (u :: v :: before)
    else (placeBehind u before).map (v :: ·)

/-- Units with smaller numbers are passed. -/
theorem place_append_of_lt {u : MediaUnit} {before : List MediaUnit}
    (h : ∀ v ∈ before, v.seq < u.seq) (rest : List MediaUnit) :
    place u (before ++ rest) = (place u rest).map (before ++ ·) := by
  induction before with
  | nil =>
    rw [List.nil_append]
    exact Option.map_id'.symm
  | cons v before ih =>
    have hlt := h v List.mem_cons_self
    rw [SeqNumber.lt_iff] at hlt
    -- `u` is neither before `v` nor the same, so `place` goes past it
    have hnot : ¬ u.seq < v.seq := by
      rw [SeqNumber.lt_iff]
      omega
    have hne : u.seq ≠ v.seq := by
      rw [Ne, ← SeqNumber.toNat_inj]
      omega
    rw [List.cons_append, place, if_neg hnot, if_neg hne,
      ih fun w hw => h w (List.mem_cons_of_mem v hw), Option.map_map]
    rfl

/-- Before units with larger numbers a unit goes to the front. -/
theorem place_of_gt {u : MediaUnit} {after : List MediaUnit} (h : ∀ v ∈ after, u.seq < v.seq) :
    place u after = some (u :: after) := by
  cases after with
  | nil => rfl
  | cons v after => rw [place, if_pos (h v List.mem_cons_self)]

/-- A search from the end that has passed `after` finds what a search from the front finds. -/
theorem map_placeBehind_append (u : MediaUnit) {before : List MediaUnit} (after : List MediaUnit)
    (hs : before.Pairwise fun v w => w.seq < v.seq) (hafter : ∀ v ∈ after, u.seq < v.seq) :
    (placeBehind u before).map (fun placed => placed.reverse ++ after) =
      place u (before.reverse ++ after) := by
  induction before generalizing after with
  | nil => exact (place_of_gt hafter).symm
  | cons v before ih =>
    obtain ⟨hv, hbefore⟩ := List.pairwise_cons.mp hs
    rw [List.reverse_cons, List.append_assoc, List.singleton_append, placeBehind]
    split
    · next heq =>
      have hlt : ∀ w ∈ before.reverse, w.seq < u.seq :=
        fun w hw => heq ▸ hv w (List.mem_reverse.mp hw)
      -- `v` has the number of `u`, and a search from the front passes all before `v` and stops
      -- there
      rw [place_append_of_lt hlt, place, if_neg (heq ▸ SeqNumber.lt_irrefl _), if_pos heq.symm]
      rfl
    · next hne =>
      split
      · next hvu =>
        have hlt : ∀ w ∈ before.reverse ++ [v], w.seq < u.seq := by
          intro w hw
          rcases List.mem_append.mp hw with hw | hw
          · exact SeqNumber.lt_trans (hv w (List.mem_reverse.mp hw)) hvu
          · exact List.mem_singleton.mp hw ▸ hvu
        -- the place is between `v` and what was passed already
        rw [List.append_cons, place_append_of_lt hlt, place_of_gt hafter]
        simp
      · next hnot =>
        -- `v` is passed too, and joins what is behind
        have huv : u.seq < v.seq := by
          rw [SeqNumber.lt_iff] at hnot ⊢
          rw [← SeqNumber.toNat_inj] at hne
          omega
        rw [← ih _ hbefore (List.forall_mem_cons.mpr ⟨huv, hafter⟩), Option.map_map]
        congr 1
        funext placed
        simp

/-- In an ordered row, the place that is found from the end is the one that is found from
the front. -/
theorem map_reverse_placeBehind (u : MediaUnit) {units : List MediaUnit}
    (hs : units.Pairwise fun v w => v.seq < w.seq) :
    (placeBehind u units.reverse).map List.reverse = place u units := by
  have hreverse := List.pairwise_reverse.mpr hs
  have h := map_placeBehind_append u [] hreverse nofun
  simpa using h

/-! ## The places of a unit -/

/-- The units that a buffer has been given, counted where they are now. -/
def accounted (b : ReorderBuffer) : Nat :=
  b.counts.delivered + b.counts.duplicates + b.counts.stale + b.pending.length

section Places

variable {b b' : ReorderBuffer} {now : Int} {t : Turn}

/-- A unit that is offered joins those that wait, or is counted as a duplicate. -/
theorem accounted_insert (b : ReorderBuffer) (u : MediaUnit) :
    (b.insert u).2.accounted = b.accounted + 1 := by
  unfold insert accounted
  split
  · next units hplace =>
    have hlength := (place_perm hplace).length_eq
    rw [List.length_cons] at hlength
    show b.counts.delivered + b.counts.duplicates + b.counts.stale + units.length = _
    omega
  · show b.counts.delivered + (b.counts.duplicates + 1) + b.counts.stale + b.pending.length = _
    omega

/-- A unit that is dropped is counted as stale. -/
theorem accounted_dropStale (b : ReorderBuffer) : b.dropStale.accounted = b.accounted := by
  unfold dropStale
  split
  · rfl
  · next last _ =>
    -- what is dropped and what is kept make up the row
    have hsplit := congrArg List.length
      (List.takeWhile_append_dropWhile (p := fun u : MediaUnit => decide (u.seq ≤ last))
        (l := b.pending))
    rw [List.length_append] at hsplit
    unfold accounted
    dsimp only
    omega

/-- The units that a turn hands out. -/
def Turn.units (t : Turn) : List MediaUnit := (t.delivery.map (·.unit)).toList

/-- A turn that hands the front out counts it as delivered. -/
theorem accounted_deliver {u : MediaUnit} {rest : List MediaUnit} (counts : ReorderCounts)
    (hp : b.dropStale.pending = u :: rest)
    (hdelivered : counts.delivered = b.dropStale.counts.delivered)
    (hduplicates : counts.duplicates = b.dropStale.counts.duplicates)
    (hstale : counts.stale = b.dropStale.counts.stale) :
    ({ b.dropStale with counts }.deliver u rest).accounted = b.accounted := by
  have hstay : b.dropStale.accounted = b.accounted := accounted_dropStale b
  simp only [accounted, hp, List.length_cons] at hstay
  simp only [accounted, deliver, hdelivered, hduplicates, hstale]
  omega

/-- A turn loses no unit: what leaves the row is counted as delivered or as stale. -/
theorem Outcome.accounted (o : Outcome b now t b') : b'.accounted = b.accounted := by
  cases o with
  | idle hp | opens hp | asks hp | waits hp => exact accounted_dropStale b
  | first hp => exact accounted_deliver b.dropStale.counts hp rfl rfl rfl
  | inOrder hp => exact accounted_deliver _ hp rfl rfl rfl
  | skips hp => exact accounted_deliver _ hp rfl rfl rfl

/-- A turn counts the unit that it hands out, if there is one, as delivered. -/
theorem Outcome.delivered (o : Outcome b now t b') :
    b'.counts.delivered = b.counts.delivered + t.units.length := by
  cases o <;> simp [Turn.units]

end Places

/-! ## Units leave at the front -/

/-- `b'` is what is left of `b` after some units have gone from its front, and their bytes have been
taken off. -/
def Leaves (b b' : ReorderBuffer) : Prop :=
  ∃ gone, b.pending = gone ++ b'.pending ∧ b'.pendingBytes = b.pendingBytes - totalSize gone

/-- Stale units leave at the front. -/
theorem leaves_dropStale (b : ReorderBuffer) : b.Leaves b.dropStale := by
  cases hl : b.lastDelivered with
  | none => exact ⟨[], by simp only [dropStale, hl]; rfl, by simp only [dropStale, hl]; rfl⟩
  | some last =>
    refine ⟨b.pending.takeWhile fun u => decide (u.seq ≤ last), ?_, ?_⟩
    · simp only [dropStale, hl]
      exact List.takeWhile_append_dropWhile.symm
    · simp only [dropStale, hl]

/-- The unit in front leaves too. -/
theorem Leaves.front {b c b' : ReorderBuffer} {u : MediaUnit} (h : b.Leaves c)
    (hp : c.pending = u :: b'.pending) (hbytes : b'.pendingBytes = c.pendingBytes - u.size) :
    b.Leaves b' := by
  obtain ⟨gone, hgone, hleft⟩ := h
  refine ⟨gone ++ [u], ?_, ?_⟩
  · rw [hgone, hp, List.append_assoc, List.singleton_append]
  · rw [hbytes, hleft, totalSize_append, totalSize_cons, totalSize_nil, Nat.add_zero, Nat.sub_sub]

/-- Whatever a turn does, units leave at the front. -/
theorem Outcome.leaves {b b' : ReorderBuffer} {now : Int} {t : Turn} (o : Outcome b now t b') :
    b.Leaves b' := by
  have hstale := leaves_dropStale b
  cases o with
  | idle | opens | asks | waits => exact hstale
  | first hp | inOrder hp | skips hp => exact hstale.front hp rfl

/-! ## Sound buffers -/

/-- What a buffer says of the units that wait is true of them. -/
structure Sound (b : ReorderBuffer) : Prop where
  sorted : b.pending.Pairwise fun u v => u.seq < v.seq
  bytes : b.pendingBytes = totalSize b.pending
  window : b.requested = true → b.gapOpened.isSome
  warranted : b.Warranted

namespace Sound

variable {b b' : ReorderBuffer} {now : Int} {t : Turn}

theorem init (grace : Int) : Sound { grace } where
  sorted := .nil
  bytes := rfl
  window := nofun
  warranted := nofun

/-- A unit is refused exactly if its number waits already. -/
theorem refused_iff (h : b.Sound) (u : MediaUnit) :
    (b.insert u).1 = false ↔ ∃ v ∈ b.pending, v.seq = u.seq := by
  rw [← place_eq_none_iff h.sorted]
  unfold insert
  cases place u b.pending <;> simp

/-- A unit that is offered is counted in, or nothing changes that the figures are about. -/
theorem insert (h : b.Sound) (u : MediaUnit) : (b.insert u).2.Sound where
  sorted := pairwise_insert h.sorted u
  bytes := by
    have hbytes := h.bytes
    unfold ReorderBuffer.insert
    -- a unit that finds a place is counted in, any other changes a count alone
    split
    · next placed hplace =>
      show b.pendingBytes + u.size = totalSize placed
      rw [totalSize_perm (place_perm hplace), totalSize_cons, hbytes, Nat.add_comm]
    · exact hbytes
  window := by
    rw [insert_requested, insert_gapOpened]
    exact h.window
  warranted := h.warranted.insert u

/-- The bytes of what leaves are all there to be taken off. -/
theorem bytes_leaving (h : b.Sound) (hleaves : b.Leaves b') :
    b'.pendingBytes = totalSize b'.pending ∧
      ∃ gone, b.pending = gone ++ b'.pending ∧
        bytesWithout? b.pendingBytes gone = some b'.pendingBytes := by
  obtain ⟨gone, hgone, hleft⟩ := hleaves
  have hbytes : b.pendingBytes = totalSize gone + totalSize b'.pending := by
    rw [h.bytes, hgone, totalSize_append]
  have hrest : b'.pendingBytes = totalSize b'.pending := by omega
  refine ⟨hrest, gone, hgone, ?_⟩
  rw [hbytes, hrest]
  exact bytesWithout?_add gone _

/-- A turn takes what leaves off the figures. -/
theorem turn (h : b.Sound) (o : Outcome b now t b') : b'.Sound where
  sorted := by
    obtain ⟨gone, hgone, -⟩ := o.leaves
    exact (List.pairwise_append.mp (hgone ▸ h.sorted)).2.1
  bytes := (h.bytes_leaving o.leaves).1
  window := by
    intro hr
    -- after a delivery nothing is marked, and a request is marked only in an open window
    cases o with
    | idle | first | inOrder | skips => cases hr
    | opens => rfl
    | asks hp hl hgap ho | waits hp hl hgap ho => exact Option.isSome_of_eq_some ho
  warranted := o.warranted

end Sound

/-- In every run the figures are right, by induction on its calls. -/
theorem sound_run (grace : Int) (calls : List Call) : (run grace calls).buffer.Sound := by
  apply Run.foldl_induction (motive := fun r => r.buffer.Sound) calls (Sound.init grace)
  · intro r u h
    rw [Run.offer_buffer]
    exact h.insert u
  · intro r now h
    exact h.turn (next_outcome r.buffer now)

/-! ## The books of a run -/

/-- The units that calls offer to a buffer. -/
def offered (calls : List Call) : List MediaUnit :=
  calls.filterMap fun call =>
    match call with
    | .insert u => some u
    | .next _ => none

/-- Every unit that was offered has a place. -/
theorem accounted_run (grace : Int) (calls : List Call) :
    (run grace calls).buffer.accounted = (offered calls).length := by
  induction calls using List.reverseRecOn with
  | nil => rfl
  | append_singleton calls call ih =>
    -- only the last call matters: a unit adds one, and a turn adds none
    rw [run_concat, offered, List.filterMap_append, List.length_append, ← offered, ← ih]
    cases call with
    | insert u =>
      show ((run grace calls).offer u).buffer.accounted = _
      rw [Run.offer_buffer, accounted_insert]
      rfl
    | next now => exact (next_outcome (run grace calls).buffer now).accounted

/-- **What a buffer says of its contents is true.** After any calls with any units and any clock
readings: the units that wait are in strictly increasing order, so that the place of a unit is the
same whether it is looked for from the front or from the end; the bytes are those of the payloads
that wait; a turn takes units from the front and their bytes off one by one, and never more than are
there; a unit is refused exactly if its number waits; every unit offered was handed out, was
refused, was dropped as stale or waits, and is counted so; and while a request is marked, a window
is open and a unit waits behind the missing one. -/
theorem run_contents_accounted (grace : Int) (calls : List Call) :
    let b := (run grace calls).buffer
    b.pending.Pairwise (fun u v => u.seq < v.seq) ∧
      (∀ u, (placeBehind u b.pending.reverse).map List.reverse = place u b.pending) ∧
      b.pendingBytes = totalSize b.pending ∧
      (∀ now, ∃ gone, b.pending = gone ++ (b.next now).2.pending ∧
        bytesWithout? b.pendingBytes gone = some (b.next now).2.pendingBytes) ∧
      (∀ u, (b.insert u).1 = false ↔ ∃ v ∈ b.pending, v.seq = u.seq) ∧
      (offered calls).length =
        b.counts.delivered + b.counts.duplicates + b.counts.stale + b.pending.length ∧
      (b.requested = true → b.gapOpened.isSome ∧ ∃ last, b.lastDelivered = some last ∧
        ∃ u ∈ b.pending, last.raw.toNat + 1 < u.seq.raw.toNat) := by
  intro b
  have h : b.Sound := sound_run grace calls
  refine ⟨h.sorted, fun u => map_reverse_placeBehind u h.sorted, h.bytes, fun now => ?_,
    h.refused_iff, (accounted_run grace calls).symm, fun hr => ⟨h.window hr, h.warranted hr⟩⟩
  exact (h.bytes_leaving (next_outcome b now).leaves).2

/-- A unit that repeats one, one that is stale, and a gap that is asked for. -/
def gapAsked : List Call :=
  [.insert ⟨⟨1⟩, [1, 2], 0, 0⟩, .insert ⟨⟨1⟩, [9], 0, 0⟩, .next 0, .insert ⟨⟨0⟩, [7], 0, 0⟩,
    .insert ⟨⟨3⟩, [3], 0, 0⟩, .next 1, .next 2]

theorem gapAsked_accounted :
    (run 50000 gapAsked).buffer.requested = true ∧
      (run 50000 gapAsked).buffer.gapOpened.isSome ∧ (offered gapAsked).length = 1 + 1 + 1 + 1 := by
  obtain ⟨-, -, -, -, -, hcount, hwindow⟩ := run_contents_accounted 50000 gapAsked
  have hrequested : (run 50000 gapAsked).buffer.requested = true := by decide
  exact ⟨hrequested, (hwindow hrequested).1, hcount⟩

end Playout.ReorderBuffer
