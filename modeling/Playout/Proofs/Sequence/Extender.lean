import Mathlib.Data.List.Basic
import Playout.Proofs.Sequence.Number
import Playout.Sequence.Extender

/-!
# Where the widened numbers lie

`x.position` is the highest number of an extender as a position of the stream, and `x.ahead wire`
is how far a wire number lies in front of it, modulo 65536. In these terms

    extend_of_new      a number less than 3000 ahead moves the position up
    extend_of_jump     a number from 3000 to 65436 ahead gets no answer
    extend_of_late     a number further ahead is one behind, and its answer lies as far behind

with one exception: in the first cycle there is nothing in front of number 0, and a packet from
before it is answered with a number that is a whole cycle too high. So there are two results:

    answers_stream         positions from number 0 on are found again from their wire numbers
    answer_le_highest_iff  an answer is at most the highest number, but for such a packet
-/

namespace Playout

namespace Extender

/-- The highest number as a position of the stream. -/
def position (x : Extender) : Nat := x.cycles.toNat * 65536 + x.highest.toNat

/-- How far a wire number lies ahead of the highest, modulo 65536. -/
def ahead (x : Extender) (wire : UInt16) : Nat := (wire - x.highest).toNat

/-- A wire number below the highest lies in the next cycle. -/
theorem position_add_ahead (x : Extender) (wire : UInt16) :
    x.position + x.ahead wire =
      (if wire < x.highest then x.cycles.toNat + 1 else x.cycles.toNat) * 65536 + wire.toNat := by
  have hwire := wire.toNat_lt
  have hhighest := x.highest.toNat_lt
  unfold position ahead
  -- the distance is counted modulo 2^16, so it wraps exactly where the cycle does
  rw [UInt16.toNat_sub]
  split
  · next hlt =>
    rw [UInt16.lt_iff_toNat_lt] at hlt
    omega
  · next hle =>
    rw [UInt16.lt_iff_toNat_lt] at hle
    omega

theorem toNat_previous_cycle {cycles : UInt32} (h : 0 < cycles.toNat) :
    (cycles - 1).toNat = cycles.toNat - 1 := by
  rw [UInt32.toNat_sub, show (1 : UInt32).toNat = 1 from rfl]
  have := cycles.toNat_lt
  omega

/-- A counter that has not come to its end counts one further. -/
theorem toNat_add_one {c : UInt32} (h : c.toNat + 1 < 2 ^ 32) : (c + 1).toNat = c.toNat + 1 := by
  rw [UInt32.toNat_add]
  exact Nat.mod_eq_of_lt h

/-- The cycle that a wire number ahead belongs to. -/
theorem toNat_next_cycles {x : Extender} (wire : UInt16) (h : x.cycles.toNat + 1 < 2 ^ 32) :
    (if wire < x.highest then x.cycles + 1 else x.cycles).toNat =
      if wire < x.highest then x.cycles.toNat + 1 else x.cycles.toNat := by
  split
  · exact toNat_add_one h
  · rfl

/-! ## What a call does -/

section Call

variable {x : Extender} {wire : UInt16} (hstarted : x.started = true)
include hstarted

/-- While 16 bits hold the cycles, the highest number is its position. -/
theorem highest?_of_started (hcycles : x.cycles.toNat < 65536) :
    x.highest?.map (·.raw.toNat) = some x.position := by
  unfold highest?
  rw [if_pos hstarted, Option.map_some, SeqNumber.toNat_ofParts hcycles]
  rfl

/-- A new number moves the position up by as much as it is ahead. -/
theorem extend_of_new (hahead : x.ahead wire < 3000) (hfits : x.position + x.ahead wire < 2 ^ 32) :
    (x.extend wire).1.map (·.raw.toNat) = some (x.position + x.ahead wire) ∧
      (x.extend wire).2.started = true ∧
      (x.extend wire).2.position = x.position + x.ahead wire := by
  have hnew : wire - x.highest < maxDropout := UInt16.lt_iff_toNat_lt.mpr hahead
  have hsum := x.position_add_ahead wire
  have hcycles : x.cycles.toNat + 1 < 2 ^ 32 := by
    unfold position at hfits
    omega
  rw [← toNat_next_cycles wire hcycles] at hsum
  simp only [extend, hstarted, Bool.not_true, Bool.false_eq_true, if_false, if_pos hnew]
  refine ⟨?_, trivial, hsum.symm⟩
  rw [Option.map_some, SeqNumber.toNat_ofParts (by omega), hsum]

/-- A jump is not answered, and is not remembered. -/
theorem extend_of_jump (hlow : 3000 ≤ x.ahead wire) (hhigh : x.ahead wire ≤ 65436) :
    x.extend wire = (none, x) := by
  have hjump : ¬ wire - x.highest < maxDropout := fun h =>
    Nat.not_lt.mpr hlow (UInt16.lt_iff_toNat_lt.mp h)
  have hfar : (wire - x.highest).toNat ≤ 65536 - maxMisorder.toNat := hhigh
  simp only [extend, hstarted, Bool.not_true, Bool.false_eq_true, if_false, if_neg hjump,
    if_pos hfar]

section Late

variable (hahead : 65436 < x.ahead wire)
include hahead

/-- A late number is the one 65536 places before that which is as far ahead, if there is one. -/
theorem extend_late : x.extend wire =
    (some (if x.highest < wire ∧ 0 < x.cycles then .ofParts (x.cycles - 1) wire
      else .ofParts x.cycles wire), x) := by
  have hold : ¬ wire - x.highest < maxDropout := fun h => by
    have h3000 : x.ahead wire < 3000 := UInt16.lt_iff_toNat_lt.mp h
    omega
  have hnear : ¬ (wire - x.highest).toNat ≤ 65536 - maxMisorder.toNat := Nat.not_le.mpr hahead
  simp only [extend, hstarted, Bool.not_true, Bool.false_eq_true, if_false, if_neg hold,
    if_neg hnear]
  split <;> rfl

/-- A late number lies one cycle below the one that is ahead, if there is one. -/
theorem extend_of_late (hcycles : x.cycles.toNat < 65536) :
    (x.extend wire).1.map (·.raw.toNat) = some (if 65536 ≤ x.position + x.ahead wire
      then x.position + x.ahead wire - 65536 else x.position + x.ahead wire) := by
  have hwire := wire.toNat_lt
  have hsum := x.position_add_ahead wire
  rw [extend_late hstarted hahead, Option.map_some]
  refine congrArg some ?_
  split
  · next hwrapped =>
    -- from before the last wrap, and that wrap was counted
    have hpos : 0 < x.cycles.toNat := UInt32.lt_iff_toNat_lt.mp hwrapped.2
    have hcycle := toNat_previous_cycle hpos
    rw [if_neg (UInt16.lt_asymm hwrapped.1)] at hsum
    rw [SeqNumber.toNat_ofParts (by omega), hcycle, if_pos (by omega)]
    omega
  · next hsame =>
    rw [SeqNumber.toNat_ofParts hcycles]
    by_cases hlt : wire < x.highest
    · rw [if_pos hlt] at hsum
      rw [if_pos (by omega)]
      omega
    · -- a number above the highest is left in its cycle only if that is the first
      rw [if_neg hlt] at hsum
      have hgt : x.highest < wire := by
        rw [UInt16.lt_iff_toNat_lt]
        unfold position at hsum
        omega
      have hfirst : x.cycles.toNat = 0 := by
        by_contra hpos
        exact hsame ⟨hgt, UInt32.lt_iff_toNat_lt.mpr (Nat.pos_of_ne_zero hpos)⟩
      rw [if_neg (by omega)]
      omega

end Late

end Call

/-! ## Runs -/

/-- The extender after some wire numbers. -/
def run (x : Extender) (wires : List UInt16) : Extender :=
  wires.foldl (fun x wire => (x.extend wire).2) x

theorem run_append_singleton (x : Extender) (wires : List UInt16) (wire : UInt16) :
    x.run (wires ++ [wire]) = ((x.run wires).extend wire).2 := by
  unfold run
  rw [List.foldl_append, List.foldl_cons, List.foldl_nil]

/-! ## True positions -/

/-- How far the wire number of `t` is ahead of that of `m`, modulo 65536. -/
def wireDistance (m t : Nat) : Nat := (65536 - m % 65536 + t % 65536) % 65536

/-- `t` lies in the window around `m`. -/
def Near (m t : Nat) : Prop := m ≤ t + 99 ∧ t ≤ m + 2999

/-- The wire number of `t` is one that is not to be trusted after `m`. -/
def Jump (m t : Nat) : Prop := 3000 ≤ wireDistance m t ∧ wireDistance m t ≤ 65436

instance (m t : Nat) : Decidable (Near m t) := inferInstanceAs (Decidable (_ ∧ _))

instance (m t : Nat) : Decidable (Jump m t) := inferInstanceAs (Decidable (_ ∧ _))

/-- The highest position after `t`, which counts if it is near the highest so far. -/
def raise (m t : Nat) : Nat := if Near m t then max m t else m

/-- The highest of the positions that count. -/
def highestOf (m : Nat) (ts : List Nat) : Nat := ts.foldl raise m

/-- Every position is near the highest so far, or a jump from it. -/
def Stream (m : Nat) : List Nat → Prop
  | [] => True
  | t :: rest => t < 2 ^ 32 ∧ (Near m t ∨ Jump m t) ∧ Stream (raise m t) rest

/-- A first part of a stream, and what follows it. -/
theorem Stream.append {m : Nat} {seen rest : List Nat} (h : Stream m (seen ++ rest)) :
    Stream m seen ∧ Stream (highestOf m seen) rest := by
  induction seen generalizing m with
  | nil => exact ⟨trivial, h⟩
  | cons t seen ih =>
    obtain ⟨hlt, hnear, hrest⟩ := h
    obtain ⟨hseen, hrest⟩ := ih hrest
    exact ⟨⟨hlt, hnear, hseen⟩, hrest⟩

/-- The highest position of an extender is `m`. -/
structure At (x : Extender) (m : Nat) : Prop where
  started : x.started = true
  position_eq : x.position = m
  lt : m < 2 ^ 32

namespace At

variable {x : Extender} {m t : Nat}

theorem cycles_lt (h : x.At m) : x.cycles.toNat < 65536 := by
  have hposition := h.position_eq
  have hlt := h.lt
  unfold position at hposition
  omega

theorem highest? (h : x.At m) : x.highest?.map (·.raw.toNat) = some m := by
  rw [highest?_of_started h.started h.cycles_lt, h.position_eq]

/-- How far a position is ahead depends on the two wire numbers. -/
theorem ahead (h : x.At m) : x.ahead (.ofNat t) = wireDistance m t := by
  have hposition := h.position_eq
  have hhighest := x.highest.toNat_lt
  unfold position at hposition
  unfold Extender.ahead wireDistance
  rw [UInt16.toNat_sub, UInt16.toNat_ofNat']
  omega

/-- A position near the highest is found again. -/
theorem near (h : x.At m) (ht : t < 2 ^ 32) (hnear : Near m t) :
    (x.extend (.ofNat t)).1.map (·.raw.toNat) = some t ∧
      (x.extend (.ofNat t)).2.At (max m t) := by
  obtain ⟨hlow, hhigh⟩ := hnear
  have hahead := h.ahead (t := t)
  have hposition := h.position_eq
  have hlt := h.lt
  unfold wireDistance at hahead
  -- at or above the highest, or behind it
  by_cases hle : m ≤ t
  · have hsum : x.position + x.ahead (.ofNat t) = t := by omega
    have hnew := extend_of_new h.started (show x.ahead (.ofNat t) < 3000 by omega) (by omega)
    rw [hsum] at hnew
    obtain ⟨hanswer, hstarted, hposition⟩ := hnew
    exact ⟨hanswer, hstarted, by omega, by omega⟩
  · have hsum : x.position + x.ahead (.ofNat t) = t + 65536 := by omega
    have hbehind : 65436 < x.ahead (.ofNat t) := by omega
    have hlate := extend_of_late h.started hbehind h.cycles_lt
    rw [hsum, if_pos (by omega), Nat.add_sub_cancel] at hlate
    refine ⟨hlate, ?_⟩
    rw [extend_late h.started hbehind, Nat.max_eq_left (by omega)]
    exact h

/-- A jump gets no answer and changes nothing. -/
theorem jump (h : x.At m) (hjump : Jump m t) : x.extend (.ofNat t) = (none, x) := by
  obtain ⟨hlow, hhigh⟩ := hjump
  rw [← h.ahead] at hlow hhigh
  exact extend_of_jump h.started hlow hhigh

/-- A position of either kind leaves the extender where it should be. -/
theorem step (h : x.At m) (ht : t < 2 ^ 32) (hstream : Near m t ∨ Jump m t) :
    (x.extend (.ofNat t)).2.At (raise m t) := by
  unfold raise
  split
  · next hnear => exact (h.near ht hnear).2
  · next hfar =>
    rw [h.jump (hstream.resolve_left hfar)]
    exact h

/-- After some positions of a stream the highest is that of those that count. -/
theorem run {ts : List Nat} (h : x.At m) (hstream : Stream m ts) :
    (x.run (ts.map .ofNat)).At (highestOf m ts) := by
  induction ts generalizing x m with
  | nil => exact h
  | cons t rest ih =>
    obtain ⟨ht, hnear, hrest⟩ := hstream
    exact ih (h.step ht hnear) hrest

end At

/-- The first packet is taken as it is, in the first cycle. -/
theorem at_first {first : Nat} (h : first < 65536) :
    (({} : Extender).extend (.ofNat first)).2.At first := by
  refine ⟨rfl, ?_, by omega⟩
  show 0 * 65536 + (UInt16.ofNat first).toNat = first
  rw [UInt16.toNat_ofNat']
  omega

/-- The extender after the packets of some positions. -/
def heard (first : Nat) (seen : List Nat) : Extender :=
  ({} : Extender).run ((first :: seen).map .ofNat)

/-- **True positions are found again.** In a stream of positions that starts in the first cycle,
every position near the highest so far is the answer to its wire number, every jump gets no answer
and changes nothing, and the highest number is that of the positions near it. -/
theorem answers_stream (first : Nat) (ts : List Nat) (hfirst : first < 65536)
    (hstream : Stream first ts) :
    (({} : Extender).extend (.ofNat first)).1.map (·.raw.toNat) = some first ∧
    (∀ seen t rest, ts = seen ++ t :: rest →
      (Near (highestOf first seen) t →
        ((heard first seen).extend (.ofNat t)).1.map (·.raw.toNat) = some t) ∧
      (Jump (highestOf first seen) t →
        (heard first seen).extend (.ofNat t) = (none, heard first seen))) ∧
    ∀ seen rest, ts = seen ++ rest →
      (heard first seen).highest?.map (·.raw.toNat) = some (highestOf first seen) := by
  have hat := at_first hfirst
  refine ⟨?_, ?_, ?_⟩
  · show some (SeqNumber.ofParts 0 (.ofNat first)).raw.toNat = some first
    rw [SeqNumber.toNat_ofParts (by decide), UInt16.toNat_ofNat', Nat.mod_eq_of_lt hfirst]
    exact congrArg some (Nat.zero_add _)
  · rintro seen t rest rfl
    -- what came before leaves the extender where the positions say
    obtain ⟨hseen, ht, -, -⟩ := hstream.append
    have hrun := hat.run hseen
    exact ⟨fun hnear => (hrun.near ht hnear).1, hrun.jump⟩
  · rintro seen rest rfl
    exact (hat.run hstream.append.1).highest?

/-- A wrap, a late packet from before it, a jump that is passed over, and the second wrap. -/
theorem answers_stream_across_wraps :
    Stream 65000 [65530, 65540, 65535, 40000, 65541] ∧
      ((heard 65000 [65530, 65540]).extend (.ofNat 65535)).1.map (·.raw.toNat) = some 65535 ∧
      (heard 65000 [65530, 65540, 65535]).extend (.ofNat 40000) =
        (none, heard 65000 [65530, 65540, 65535]) ∧
      (heard 65000 [65530, 65540, 65535, 40000, 65541]).highest?.map (·.raw.toNat) =
        some 65541 := by
  have hstream : Stream 65000 [65530, 65540, 65535, 40000, 65541] := by
    simp [Stream, raise, Near, Jump, wireDistance]
  obtain ⟨-, hcalls, hhighest⟩ := answers_stream 65000 _ (by decide) hstream
  refine ⟨hstream, ?_, ?_, ?_⟩
  · exact (hcalls [65530, 65540] 65535 [40000, 65541] rfl).1 (by decide)
  · exact (hcalls [65530, 65540, 65535] 40000 [65541] rfl).2 (by decide)
  · exact hhighest [65530, 65540, 65535, 40000, 65541] [] rfl

/-! ## Answers and the highest number -/

/-- How many of the wire numbers start a new cycle. -/
def wraps (x : Extender) : List UInt16 → Nat
  | [] => 0
  | wire :: rest =>
    (if (x.extend wire).2.cycles = x.cycles then 0 else 1) + wraps (x.extend wire).2 rest

/-- A packet starts at most one new cycle. -/
theorem extend_cycles (x : Extender) (wire : UInt16) :
    (x.extend wire).2.cycles = x.cycles ∨ (x.extend wire).2.cycles = x.cycles + 1 := by
  unfold extend
  dsimp only
  split
  · exact Or.inl rfl
  · split
    · split
      · exact Or.inr rfl
      · exact Or.inl rfl
    · split
      · exact Or.inl rfl
      · split <;> exact Or.inl rfl

/-- The cycles are counted right, as long as the counter lasts. -/
theorem cycles_run (x : Extender) (wires : List UInt16)
    (h : x.cycles.toNat + x.wraps wires < 2 ^ 32) :
    (x.run wires).cycles.toNat = x.cycles.toNat + x.wraps wires := by
  induction wires generalizing x with
  | nil => rfl
  | cons wire rest ih =>
    -- the first wire number starts a new cycle, or it does not
    have hnext : (x.extend wire).2.cycles.toNat =
        x.cycles.toNat + if (x.extend wire).2.cycles = x.cycles then 0 else 1 := by
      unfold wraps at h
      split
      · next hsame => rw [hsame, Nat.add_zero]
      · next hnew =>
        rw [if_neg hnew] at h
        rw [(x.extend_cycles wire).resolve_left hnew]
        exact toNat_add_one (by omega)
    unfold wraps at h ⊢
    rw [← Nat.add_assoc, ← hnext] at h ⊢
    exact ih _ h

/-- A packet that is the first one, or new, is the highest from then on. -/
theorem highest?_of_moves {x : Extender} {wire : UInt16}
    (h : x.started = false ∨ x.ahead wire < 3000) :
    (x.extend wire).2.highest? = (x.extend wire).1 ∧ (x.extend wire).2.highest = wire := by
  cases hstarted : x.started with
  | false =>
    simp only [extend, hstarted, Bool.not_false, if_true]
    exact ⟨rfl, trivial⟩
  | true =>
    have hahead := h.resolve_left (by simp [hstarted])
    have hnew : wire - x.highest < maxDropout := UInt16.lt_iff_toNat_lt.mpr hahead
    simp only [extend, hstarted, Bool.not_true, Bool.false_eq_true, if_false, if_pos hnew]
    exact ⟨rfl, trivial⟩

/-- An answer is ahead of the highest number only if it is late and there is no cycle before. -/
theorem extend_le_highest_iff {x : Extender} {wire : UInt16} {n : SeqNumber}
    (hanswer : (x.extend wire).1 = some n) (hcycles : (x.extend wire).2.cycles.toNat < 65536) :
    ∃ top, (x.extend wire).2.highest? = some top ∧
      (n ≤ top ↔ ¬ ((x.extend wire).2.cycles.toNat = 0 ∧ (x.extend wire).2.highest < wire)) := by
  by_cases hmoves : x.started = false ∨ x.ahead wire < 3000
  · obtain ⟨htop, hhighest⟩ := highest?_of_moves hmoves
    refine ⟨n, htop.trans hanswer, iff_of_true (SeqNumber.le_iff.mpr (Nat.le_refl _)) ?_⟩
    rw [hhighest]
    exact fun hlt => UInt16.lt_irrefl wire hlt.2
  · obtain ⟨hstarted, hold⟩ := not_or.mp hmoves
    rw [Bool.not_eq_false] at hstarted
    by_cases hjump : x.ahead wire ≤ 65436
    · rw [extend_of_jump hstarted (by omega) hjump] at hanswer
      cases hanswer
    · have hlate : 65436 < x.ahead wire := Nat.not_le.mp hjump
      rw [extend_late hstarted hlate] at hanswer hcycles ⊢
      cases hanswer
      dsimp only at hcycles ⊢
      refine ⟨_, if_pos hstarted, ?_⟩
      split
      · next hwrapped =>
        -- the answer is from the cycle before
        have hpos : 0 < x.cycles.toNat := UInt32.lt_iff_toNat_lt.mp hwrapped.2
        have hcycle := toNat_previous_cycle hpos
        have hwire := wire.toNat_lt
        refine iff_of_true ?_ fun hfirst => by omega
        rw [SeqNumber.le_iff, SeqNumber.toNat_ofParts (by omega), SeqNumber.toNat_ofParts hcycles]
        omega
      · next hsame =>
        -- the answer is from the same cycle, and above the highest only in the first one
        rw [SeqNumber.le_iff, SeqNumber.toNat_ofParts hcycles, SeqNumber.toNat_ofParts hcycles,
          Nat.add_le_add_iff_left, ← UInt16.le_iff_toNat_le, ← UInt16.not_lt]
        refine not_congr ⟨fun hgt => ⟨?_, hgt⟩, fun hboth => hboth.2⟩
        by_contra hne
        exact hsame ⟨hgt, UInt32.lt_iff_toNat_lt.mpr (Nat.pos_of_ne_zero hne)⟩

/-- **Answers stay behind the highest number, but for packets from before number 0.** In every run
of fewer than 65536 wraps an answer is at most the highest number of that moment, unless no wrap
was counted and the wire number is above the highest: the packet is late, and its place is before
the first cycle. -/
theorem answer_le_highest_iff (seen : List UInt16) (wire : UInt16) (x : Extender) (n : SeqNumber)
    (hwraps : wraps {} (seen ++ [wire]) < 65536)
    (hanswer : (({} : Extender).run seen).extend wire = (some n, x)) :
    ∃ top, x.highest? = some top ∧
      (n ≤ top ↔ ¬ (wraps {} (seen ++ [wire]) = 0 ∧ x.highest < wire)) := by
  have hzero : ({} : Extender).cycles.toNat = 0 := rfl
  have hcount := cycles_run {} (seen ++ [wire]) (by omega)
  rw [run_append_singleton, hanswer, hzero, Nat.zero_add] at hcount
  rw [← hcount] at hwraps ⊢
  have hfst : ((({} : Extender).run seen).extend wire).1 = some n := by rw [hanswer]
  have hle := extend_le_highest_iff hfst
  rw [hanswer] at hle
  exact hle hwraps

/-- A packet from before a wrap that was counted is behind the highest number. -/
theorem late_after_wrap_behind :
    wraps {} ([65535, 0] ++ [65534]) < 65536 ∧
      (({} : Extender).run [65535, 0]).extend 65534 =
        (some ⟨65534⟩, ({} : Extender).run [65535, 0]) ∧
      ∃ top, (({} : Extender).run [65535, 0]).highest? = some top ∧ ⟨65534⟩ ≤ top := by
  have hwraps : wraps {} ([65535, 0] ++ [65534]) < 65536 := by decide
  have hanswer : (({} : Extender).run [65535, 0]).extend 65534 =
      (some ⟨65534⟩, ({} : Extender).run [65535, 0]) := by decide
  obtain ⟨top, htop, hle⟩ := answer_le_highest_iff [65535, 0] 65534 _ _ hwraps hanswer
  exact ⟨hwraps, hanswer, top, htop, hle.mpr (by decide)⟩

/-- The packet three places before number 1 is answered with a number that is ahead of it. -/
theorem late_before_start_ahead :
    ¬ ∀ (seen : List UInt16) (wire : UInt16) (x : Extender) (n : SeqNumber),
      seen.length + 1 < 2 ^ 32 → wraps {} (seen ++ [wire]) < 65536 →
      (({} : Extender).run seen).extend wire = (some n, x) →
      ∃ top, x.highest? = some top ∧ n ≤ top := by
  intro h
  obtain ⟨top, htop, hle⟩ := h [1] 65534 (({} : Extender).run [1]) ⟨65534⟩ (by decide) (by decide)
    (by decide)
  obtain rfl : (⟨1⟩ : SeqNumber) = top := Option.some.inj htop
  revert hle
  decide

end Extender

end Playout
