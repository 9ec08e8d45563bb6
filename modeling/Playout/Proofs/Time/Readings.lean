import Mathlib.Algebra.Group.Int.Defs
import Mathlib.Algebra.Group.Nat.Defs
import Playout.Time.Checked

/-!
# Readings that leave room

Two readings of less than `2 ^ 61` microseconds are never so far apart that their difference
overflows. A span that is put on such a reading may take all that is left of a word, and no more:

    every sum of a near reading and `span` is exact ↔ span ≤ 3 * 2 ^ 61
-/

namespace Playout

/-- A reading within 73000 years of zero. -/
def NearZero (n : Int) : Prop := n.natAbs < 2 ^ 61

instance (n : Int) : Decidable (NearZero n) := inferInstanceAs (Decidable (_ < _))

/-- The latest of the near readings. -/
def latest : Int := 2 ^ 61 - 1

theorem near_latest : NearZero latest := by decide

/-- The longest span for which there is room behind every near reading. -/
def longestSpan : Int := 3 * 2 ^ 61

theorem readable_iff {n : Int} : Readable n ↔ -2 ^ 63 ≤ n ∧ n ≤ 2 ^ 63 - 1 := Iff.rfl

theorem NearZero.readable_difference {a b : Int} (ha : NearZero a) (hb : NearZero b) :
    Readable (a - b) := by
  unfold NearZero at ha hb
  rw [readable_iff]
  omega

theorem NearZero.readable_sum {a span : Int} (ha : NearZero a) (hpositive : 0 ≤ span)
    (hspan : span ≤ longestSpan) : Readable (a + span) := by
  unfold NearZero at ha
  unfold longestSpan at hspan
  rw [readable_iff]
  omega

theorem le_longestSpan {span : Int} (h : Readable (latest + span)) : span ≤ longestSpan := by
  have hlatest := (readable_iff.mp h).2
  unfold latest at hlatest
  unfold longestSpan
  omega

namespace Checked

theorem difference_of_near {a b : Int} (ha : NearZero a) (hb : NearZero b) :
    difference a b = .ok (a - b) := by
  rw [difference_eq, if_pos (ha.readable_difference hb)]

theorem sum_eq_ok_iff {a b n : Int} : sum a b = .ok n ↔ Readable (a + b) ∧ a + b = n := by
  rw [sum_eq]
  split
  · next h => simp [h]
  · next h => simp [h]

end Checked

theorem Span.toMicros_nonneg (d : Span) : 0 ≤ d.toMicros := by
  have hmax : (0 : Int) ≤ maxMicros := by decide
  exact Int.le_min.mpr ⟨Int.natCast_nonneg _, hmax⟩

end Playout
