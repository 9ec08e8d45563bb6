import Mathlib.Algebra.Group.Int.Defs
import Mathlib.Algebra.Group.Nat.Defs
import Playout.Ntp.Timestamp

/-!
# Counting units of fixed-point time

Spans and moments are words of 64 bits, and their sums and differences wrap around. Counted in units
of `2 ^ -32` seconds a span is an integer, and `ofUnits` leads from the integers to the spans: it
carries sums to sums and differences to differences, wherever they wrap, so that a chain of them is
computed in the integers first and wrapped once.

    units_ofUnits : (ofUnits n).units = n.bmod (2 ^ 64)
-/

namespace Playout.Ntp

/-- A signed word of 64 bits can hold the number. -/
def Representable (n : Int) : Prop := -2 ^ 63 ≤ n ∧ n < 2 ^ 63

instance (n : Int) : Decidable (Representable n) :=
  inferInstanceAs (Decidable (_ ∧ _))

/-- Twice the half of a number, rounded toward zero, is off by one at most. -/
theorem natAbs_sub_two_mul_tdiv_le (n : Int) : (n - 2 * n.tdiv 2).natAbs ≤ 1 := by
  have hdivision := Int.mul_tdiv_add_tmod n 2
  have hrest : (n.tmod 2).natAbs = n.natAbs % 2 := Int.natAbs_tmod n 2
  omega

namespace Interval

/-- A span of `n` units; one that is too long wraps around. -/
def ofUnits (n : Int) : Interval := ⟨Int64.ofInt n⟩

/-- The units of a span. -/
def units (d : Interval) : Int := d.raw.toInt

theorem units_ofUnits (n : Int) : (ofUnits n).units = n.bmod (2 ^ 64) := Int64.toInt_ofInt

theorem units_ofUnits_of_representable {n : Int} (h : Representable n) : (ofUnits n).units = n :=
  Int64.toInt_ofInt_of_le h.1 h.2

theorem ofUnits_units (d : Interval) : ofUnits d.units = d :=
  congrArg Interval.mk (Int64.ofInt_toInt d.raw)

theorem representable_units (d : Interval) : Representable d.units :=
  ⟨d.raw.le_toInt, d.raw.toInt_lt⟩

theorem ofUnits_add (m n : Int) : ofUnits m + ofUnits n = ofUnits (m + n) :=
  congrArg Interval.mk (Int64.ofInt_add m n).symm

theorem ofUnits_sub (m n : Int) : ofUnits m - ofUnits n = ofUnits (m - n) :=
  congrArg Interval.mk (Int64.ofInt_sub m n).symm

/-- Halving never leaves the range. -/
theorem units_half (d : Interval) : d.half.units = d.units.tdiv 2 := by
  obtain ⟨hlow, hhigh⟩ := d.representable_units
  have hhalf : Representable (d.units.tdiv 2) := by
    have hrounded := natAbs_sub_two_mul_tdiv_le d.units
    unfold Representable
    omega
  exact Int64.toInt_ofInt_of_le hhalf.1 hhalf.2

end Interval

namespace Timestamp

/-- The moment `n` units later; the count of seconds may start over. -/
def later (t : Timestamp) (n : Int) : Timestamp := t + Interval.ofUnits n

variable (t : Timestamp) (m n : Int)

theorem later_sub_self : t.later n - t = Interval.ofUnits n := by
  show Interval.mk (t.raw + (Int64.ofInt n).toUInt64 - t.raw).toInt64 = _
  have hraw : t.raw + (Int64.ofInt n).toUInt64 - t.raw = (Int64.ofInt n).toUInt64 := by grind
  rw [hraw, Int64.toInt64_toUInt64]
  rfl

theorem later_sub_later : t.later m - t.later n = Interval.ofUnits (m - n) := by
  show Interval.mk (t.raw + (Int64.ofInt m).toUInt64 -
    (t.raw + (Int64.ofInt n).toUInt64)).toInt64 = _
  have hraw : t.raw + (Int64.ofInt m).toUInt64 - (t.raw + (Int64.ofInt n).toUInt64) =
      (Int64.ofInt m).toUInt64 - (Int64.ofInt n).toUInt64 := by grind
  rw [hraw, UInt64.toInt64_sub, Int64.toInt64_toUInt64, Int64.toInt64_toUInt64]
  exact Interval.ofUnits_sub m n

theorem later_later : (t.later m).later n = t.later (m + n) := by
  show Timestamp.mk (t.raw + (Int64.ofInt m).toUInt64 + (Int64.ofInt n).toUInt64) =
    Timestamp.mk (t.raw + (Int64.ofInt (m + n)).toUInt64)
  rw [Int64.ofInt_add, Int64.toUInt64_add, UInt64.add_assoc]

theorem later_units (d : Interval) : t.later d.units = t + d := by
  unfold later
  rw [Interval.ofUnits_units]

end Timestamp

end Playout.Ntp
