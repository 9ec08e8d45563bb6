import Mathlib.Algebra.Group.Nat.Defs
import Playout.Sequence.Number

/-!
# Stream numbers as natural numbers

Each operation on stream numbers in `Nat`, where the order is linear arithmetic. The numbers before
and behind one need a neighbour on the other side, which keeps them from wrapping around; a number
put together from its cycle and its wire number needs a cycle that 16 bits hold.
-/

namespace Playout.SeqNumber

/-! ## Order -/

theorem lt_trans {a b c : SeqNumber} (h : a < b) (h' : b < c) : a < c := by
  rw [lt_iff] at h h' ⊢
  omega

theorem lt_irrefl (a : SeqNumber) : ¬ a < a := by
  rw [lt_iff]
  omega

theorem not_lt {a b : SeqNumber} : ¬ a < b ↔ b ≤ a := by
  rw [lt_iff, le_iff]
  omega

theorem toNat_inj {a b : SeqNumber} : a.raw.toNat = b.raw.toNat ↔ a = b := by
  cases a
  cases b
  rw [UInt32.toNat_inj, mk.injEq]

/-- A number below another one has a next one. -/
theorem toNat_next {a b : SeqNumber} (h : a < b) : a.next.raw.toNat = a.raw.toNat + 1 := by
  have hb := b.raw.toNat_lt
  rw [lt_iff] at h
  show (a.raw + 1).toNat = _
  rw [UInt32.toNat_add, show (1 : UInt32).toNat = 1 from rfl]
  omega

/-- A number above another one has a previous one. -/
theorem toNat_previous {a b : SeqNumber} (h : a < b) :
    b.previous.raw.toNat = b.raw.toNat - 1 := by
  have hb := b.raw.toNat_lt
  rw [lt_iff] at h
  show (b.raw - 1).toNat = _
  rw [UInt32.toNat_sub, show (1 : UInt32).toNat = 1 from rfl]
  omega

/-- The distance of two numbers is cut off at zero. -/
theorem toNat_sub (a b : SeqNumber) : (a - b).toNat = a.raw.toNat - b.raw.toNat := by
  show ((a.raw.toNat : Int) - b.raw.toNat).toNat = _
  omega

/-! ## Cycles and wire numbers -/

theorem toNat_wire (n : SeqNumber) : n.wire.toNat = n.raw.toNat % 65536 :=
  UInt32.toNat_toUInt16 n.raw

/-- A number is put together modulo `2 ^ 32`. -/
theorem toNat_ofParts_mod (cycles : UInt32) (wire : UInt16) :
    (ofParts cycles wire).raw.toNat = (cycles.toNat * 65536 + wire.toNat) % 2 ^ 32 := by
  show (cycles * 65536 + wire.toUInt32).toNat = _
  rw [UInt32.toNat_add, UInt32.toNat_mul, UInt16.toNat_toUInt32,
    show (65536 : UInt32).toNat = 65536 from rfl, Nat.mod_add_mod]

/-- Cycles of 16 bits are kept whole. -/
theorem toNat_ofParts {cycles : UInt32} (h : cycles.toNat < 65536) (wire : UInt16) :
    (ofParts cycles wire).raw.toNat = cycles.toNat * 65536 + wire.toNat := by
  have hwire := wire.toNat_lt
  rw [toNat_ofParts_mod]
  omega

end Playout.SeqNumber
