import Playout.Proofs.Reorder.Contents

/-!
# The order of arrival does not matter

Units that come between two turns find each other in the row, and each of them goes to its place
there. With different numbers they do not get in each other's way: a unit is refused if its number
waited before any of them came (`waits`), and what waits afterwards is what was there with the
new units. That says all there is to say of the buffer (`TakesIn`), because there is only one way to
put units in order:

    TakesIn.unique : what is left of a buffer does not depend on the order of arrival
-/

namespace Playout.ReorderBuffer

/-! ## One unit after the other -/

/-- Take units in, one after the other, with the answer to each. -/
def insertAll (b : ReorderBuffer) : List MediaUnit → List Bool × ReorderBuffer
  | [] => ([], b)
  | u :: rest =>
    ((b.insert u).1 :: ((b.insert u).2.insertAll rest).1, ((b.insert u).2.insertAll rest).2)

/-- The number of a unit waits already. -/
def waits (b : ReorderBuffer) (u : MediaUnit) : Bool :=
  b.pending.any fun v => decide (v.seq = u.seq)

theorem waits_iff {b : ReorderBuffer} {u : MediaUnit} :
    b.waits u = true ↔ ∃ v ∈ b.pending, v.seq = u.seq := by
  simp [waits]

section Insert

variable {b : ReorderBuffer} {u v : MediaUnit} (hs : b.pending.Pairwise fun v w => v.seq < w.seq)
include hs

/-- A unit whose number waits is counted as a duplicate. -/
theorem insert_of_waits (h : b.waits u = true) :
    b.insert u = (false, { b with counts.duplicates := b.counts.duplicates + 1 }) := by
  unfold insert
  rw [(place_eq_none_iff hs).mpr (waits_iff.mp h)]

/-- Any other unit goes to its place. -/
theorem insert_of_not_waits (h : b.waits u = false) :
    ∃ placed, placed.Perm (u :: b.pending) ∧
      b.insert u =
        (true, { b with pending := placed, pendingBytes := b.pendingBytes + u.size }) := by
  cases hp : place u b.pending with
  | none =>
    rw [waits_iff.mpr ((place_eq_none_iff hs).mp hp)] at h
    cases h
  | some placed =>
    refine ⟨placed, place_perm hp, ?_⟩
    unfold insert
    rw [hp]

/-- A unit is taken in unless its number waits. -/
theorem insert_answer (u : MediaUnit) : (b.insert u).1 = !b.waits u := by
  cases h : b.waits u with
  | true => rw [insert_of_waits hs h]; rfl
  | false =>
    obtain ⟨placed, -, heq⟩ := insert_of_not_waits hs h
    rw [heq]
    rfl

/-- A unit makes no difference to one with another number. -/
theorem waits_insert_of_ne (h : u.seq ≠ v.seq) : (b.insert u).2.waits v = b.waits v := by
  rw [Bool.eq_iff_iff, waits_iff, waits_iff]
  cases hwaits : b.waits u with
  -- the row stays as it was
  | true => rw [insert_of_waits hs hwaits]
  | false =>
    obtain ⟨placed, hperm, heq⟩ := insert_of_not_waits hs hwaits
    rw [heq]
    constructor
    · rintro ⟨w, hw, hseq⟩
      rcases List.mem_cons.mp (hperm.mem_iff.mp hw) with rfl | hw
      · exact absurd hseq h
      · exact ⟨w, hw, hseq⟩
    · rintro ⟨w, hw, hseq⟩
      exact ⟨w, hperm.mem_iff.mpr (List.mem_cons_of_mem u hw), hseq⟩

end Insert

/-! ## What is taken in -/

/-- The units of a list whose numbers do not wait. -/
def newAmong (b : ReorderBuffer) (units : List MediaUnit) : List MediaUnit :=
  units.filter fun u => !b.waits u

/-- `b'` is `b` with the units of a list: the new ones wait, and the others are counted. -/
structure TakesIn (b : ReorderBuffer) (units : List MediaUnit) (b' : ReorderBuffer) : Prop where
  sorted : b'.pending.Pairwise fun u v => u.seq < v.seq
  perm : b'.pending.Perm (b.newAmong units ++ b.pending)
  rest : b' = { b with
    pending := b'.pending
    pendingBytes := b.pendingBytes + totalSize (b.newAmong units)
    counts.duplicates := b.counts.duplicates + units.countP b.waits }

namespace TakesIn

variable {b b' b'' : ReorderBuffer} {u : MediaUnit} {units units' : List MediaUnit}

/-- What is left of a buffer does not depend on the order of arrival. -/
theorem unique (h : b.TakesIn units b') (h' : b.TakesIn units' b'') (hperm : units.Perm units') :
    b' = b'' := by
  have hnew : (b.newAmong units).Perm (b.newAmong units') := hperm.filter _
  have hpending : b'.pending = b''.pending := by
    apply List.Perm.eq_of_pairwise _ h.sorted h'.sorted
    · exact h.perm.trans ((hnew.append_right _).trans h'.perm.symm)
    · intro u v _ _ huv hvu
      exact absurd (SeqNumber.lt_trans huv hvu) (SeqNumber.lt_irrefl _)
  rw [h.rest, h'.rest, hpending, totalSize_perm hnew, hperm.countP_eq]

/-- If the first unit comes before the others, and no other has its number, then they are taken in
as one list. -/
theorem cons (hs : b.pending.Pairwise fun v w => v.seq < w.seq) (hne : ∀ v ∈ units, u.seq ≠ v.seq)
    (h : (b.insert u).2.TakesIn units b') : b.TakesIn (u :: units) b' := by
  -- the first unit makes no difference to the others, as their numbers are different
  have hwaits : ∀ v ∈ units, (b.insert u).2.waits v = b.waits v :=
    fun v hv => waits_insert_of_ne hs (hne v hv)
  have hnew : (b.insert u).2.newAmong units = b.newAmong units :=
    List.filter_congr fun v hv => by rw [hwaits v hv]
  have hcount : units.countP (b.insert u).2.waits = units.countP b.waits :=
    List.countP_congr fun v hv => by rw [hwaits v hv]
  obtain ⟨hsorted, hperm, hrest⟩ := h
  rw [hnew] at hperm hrest
  rw [hcount] at hrest
  cases hu : b.waits u with
  | true =>
    -- `u` is refused, and counted as one more duplicate
    rw [insert_of_waits hs hu] at hperm hrest
    have hsame : b.newAmong (u :: units) = b.newAmong units :=
      List.filter_cons_of_neg (by simp [hu])
    refine ⟨hsorted, hsame ▸ hperm, ?_⟩
    rw [hsame, List.countP_cons_of_pos hu]
    refine hrest.trans ?_
    simp only [Nat.add_assoc, Nat.add_comm 1]
  | false =>
    -- `u` goes to its place, and its bytes are counted in
    obtain ⟨placed, hplaced, heq⟩ := insert_of_not_waits hs hu
    rw [heq] at hperm hrest
    have hmore : b.newAmong (u :: units) = u :: b.newAmong units :=
      List.filter_cons_of_pos (by simp [hu])
    refine ⟨hsorted, ?_, ?_⟩
    · rw [hmore, List.cons_append]
      exact hperm.trans ((hplaced.append_left _).trans List.perm_middle)
    · rw [hmore, List.countP_cons_of_neg (by simp [hu]), totalSize_cons]
      refine hrest.trans ?_
      simp only [Nat.add_assoc]

/-- Units with different numbers are each answered as if they had come alone. -/
theorem insertAll (hs : b.pending.Pairwise fun v w => v.seq < w.seq)
    (hdistinct : units.Pairwise fun u v => u.seq ≠ v.seq) :
    (b.insertAll units).1 = units.map (fun u => !b.waits u) ∧
      b.TakesIn units (b.insertAll units).2 := by
  induction units generalizing b with
  | nil => exact ⟨rfl, hs, .refl _, rfl⟩
  | cons u rest ih =>
    obtain ⟨hne, hrest⟩ := List.pairwise_cons.mp hdistinct
    -- the others come to a buffer that has taken `u` in, and do not notice
    obtain ⟨hanswers, htaken⟩ := ih (pairwise_insert hs u) hrest
    refine ⟨?_, htaken.cons hs hne⟩
    have hlater : rest.map (fun v => !(b.insert u).2.waits v) = rest.map fun v => !b.waits v :=
      List.map_congr_left fun v hv => by rw [waits_insert_of_ne hs (hne v hv)]
    rw [hlater] at hanswers
    rw [ReorderBuffer.insertAll, hanswers, insert_answer hs, List.map_cons]

end TakesIn

/-! ## Runs that differ in the order of arrival -/

/-- The run so far has brought the same, and left the same buffer. -/
def Run.Same (r r' : Run) : Prop := r.buffer = r'.buffer ∧ r.turns = r'.turns

/-- The same calls on the same buffer bring the same. -/
theorem Run.Same.foldl {r r' : Run} (h : r.Same r') (calls : List Call) :
    (calls.foldl Run.perform r).Same (calls.foldl Run.perform r') := by
  induction calls generalizing r r' with
  | nil => exact h
  | cons call calls ih =>
    apply ih
    -- a call looks at nothing but the buffer
    obtain ⟨hbuffer, hturns⟩ := h
    cases call with
    | insert u =>
      refine ⟨?_, ?_⟩
      · show (r.offer u).buffer = (r'.offer u).buffer
        rw [offer_buffer, offer_buffer, hbuffer]
      · show (r.offer u).turns = (r'.offer u).turns
        rw [offer_turns, offer_turns, hturns]
    | next now =>
      refine ⟨?_, ?_⟩
      · show (r.buffer.next now).2 = (r'.buffer.next now).2
        rw [hbuffer]
      · show r.turns ++ [(r.buffer.next now).1] = r'.turns ++ [(r'.buffer.next now).1]
        rw [hbuffer, hturns]

/-- Units that come bring no turn. -/
theorem Run.foldl_inserts (r : Run) (units : List MediaUnit) :
    ((units.map Call.insert).foldl Run.perform r).buffer = (r.buffer.insertAll units).2 ∧
      ((units.map Call.insert).foldl Run.perform r).turns = r.turns := by
  induction units generalizing r with
  | nil => exact ⟨rfl, rfl⟩
  | cons u rest ih =>
    obtain ⟨hbuffer, hturns⟩ := ih (r.offer u)
    rw [offer_buffer] at hbuffer
    rw [offer_turns] at hturns
    exact ⟨hbuffer, hturns⟩

/-- A run goes on from where its first calls have led. -/
theorem run_append (grace : Int) (calls more : List Call) :
    run grace (calls ++ more) = more.foldl Run.perform (run grace calls) :=
  List.foldl_append

/-- **The order of arrival between two turns does not matter.** To any buffer, after any calls,
units with different numbers come in one of two orders: each of them is answered as if it had come
alone, the two buffers that are left are the same in every field, and from then on the same calls
bring the same deliveries and events. -/
theorem run_arrivals_in_any_order (grace : Int) (before : List Call) {units units' : List MediaUnit}
    (hperm : units.Perm units') (hdistinct : units.Pairwise fun u v => u.seq ≠ v.seq) :
    let b := (run grace before).buffer
    (b.insertAll units).1 = units.map (fun u => (b.insert u).1) ∧
      (b.insertAll units').1 = units'.map (fun u => (b.insert u).1) ∧
      (b.insertAll units).2 = (b.insertAll units').2 ∧
      ∀ after : List Call,
        let r := run grace (before ++ units.map .insert ++ after)
        let r' := run grace (before ++ units'.map .insert ++ after)
        r.turns = r'.turns ∧ r.buffer = r'.buffer := by
  intro b
  have hs := (sound_run grace before).sorted
  have hdistinct' : units'.Pairwise fun u v => u.seq ≠ v.seq :=
    hperm.pairwise hdistinct fun h => h.symm
  have hanswer : (fun u => !b.waits u) = fun u => (b.insert u).1 :=
    funext fun u => (insert_answer hs u).symm
  obtain ⟨hanswers, htaken⟩ := TakesIn.insertAll hs hdistinct
  obtain ⟨hanswers', htaken'⟩ := TakesIn.insertAll hs hdistinct'
  have hsame : (b.insertAll units).2 = (b.insertAll units').2 := htaken.unique htaken' hperm
  refine ⟨hanswer ▸ hanswers, hanswer ▸ hanswers', hsame, fun after => ?_⟩
  -- when all units have come, the two runs have come to the same buffer with the same turns
  have hstart : ((units.map Call.insert).foldl Run.perform (run grace before)).Same
      ((units'.map Call.insert).foldl Run.perform (run grace before)) := by
    obtain ⟨hbuffer, hturns⟩ := (run grace before).foldl_inserts units
    obtain ⟨hbuffer', hturns'⟩ := (run grace before).foldl_inserts units'
    exact ⟨hbuffer.trans (hsame.trans hbuffer'.symm), hturns.trans hturns'.symm⟩
  rw [run_append, run_append, run_append, run_append]
  exact (hstart.foldl after).symm

/-- Two orders of three units, of which one is late and one repeats a unit that waits. -/
theorem late_and_repeated_in_any_order :
    let before : List Call := [.insert ⟨⟨5⟩, [5], 0, 0⟩, .next 0, .insert ⟨⟨8⟩, [8], 0, 0⟩]
    let units : List MediaUnit := [⟨⟨7⟩, [7], 0, 0⟩, ⟨⟨8⟩, [9], 0, 0⟩, ⟨⟨2⟩, [2], 0, 0⟩]
    let b := (run 50000 before).buffer
    units.Perm units.reverse ∧ units.Pairwise (fun u v => u.seq ≠ v.seq) ∧
      (b.insertAll units).1 = [true, false, true] ∧
      (b.insertAll units).2 = (b.insertAll units.reverse).2 := by
  intro before units b
  have hperm : units.Perm units.reverse := (List.reverse_perm units).symm
  have hdistinct : units.Pairwise fun u v => u.seq ≠ v.seq := by decide
  obtain ⟨hanswers, -, hsame, -⟩ := run_arrivals_in_any_order 50000 before hperm hdistinct
  refine ⟨hperm, hdistinct, ?_, hsame⟩
  rw [hanswers]
  decide

end Playout.ReorderBuffer
