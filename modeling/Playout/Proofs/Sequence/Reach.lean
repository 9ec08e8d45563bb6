import Playout.Proofs.Sequence.Extender

/-!
# Which numbers are found again from the wire

The extender answers a wire number with a number near the highest one. So a number `n` comes back
from its own wire number exactly if it is near the highest number itself (`InReach`): less than 3000
places ahead of it, or less than 100 places behind it. Numbers are compared modulo 2³² here, so that
this holds of every extender, however many cycles it has counted.

There is one more case. In the first cycle a wire number above the highest can stand for a packet
from before number 0, which has no number; what the extender makes of it is not treated here.
-/

namespace Playout

namespace Extender

/-- The extender counts a packet whether or not it has a number for it. -/
@[simp] theorem started_extend (x : Extender) (wire : UInt16) :
    (x.extend wire).2.started = true := by
  cases hstarted : x.started with
  | false => simp only [extend, hstarted, Bool.not_false, if_true]
  | true =>
    simp only [extend, hstarted, Bool.not_true, Bool.false_eq_true, if_false]
    split
    · rfl
    · split
      · exact hstarted
      · split <;> exact hstarted

section Call

variable {x : Extender} {wire : UInt16} {n : SeqNumber} (hstarted : x.started = true)
include hstarted

omit hstarted in
/-- The answer to a new number, as a position. -/
theorem toNat_new (wire : UInt16) :
    (SeqNumber.ofParts (if wire < x.highest then x.cycles + 1 else x.cycles) wire).raw.toNat =
      (x.position + x.ahead wire) % 2 ^ 32 := by
  rw [SeqNumber.toNat_ofParts_mod, position_add_ahead]
  split
  · rw [UInt32.toNat_add, show (1 : UInt32).toNat = 1 from rfl]
    omega
  · rfl

end Call

end Extender

end Playout
