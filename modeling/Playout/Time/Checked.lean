import Playout.Time.Span

/-!
# Sums and differences of clock readings

A clock reading is a signed word of 64 bits, and so are the sums and differences of readings that
deadlines and delays are made of. They are checked: where the word would wrap around, the operation
ends in an `Overflow`.
-/

namespace Playout

/-- The least microsecond count that a clock can show. -/
def minMicros : Int := Int64.minValue.toInt

/-- A clock can show the number. -/
def Readable (n : Int) : Prop := minMicros ≤ n ∧ n ≤ maxMicros

instance (n : Int) : Decidable (Readable n) := inferInstanceAs (Decidable (_ ∧ _))

/-- An operation whose result no clock can show. -/
inductive Overflow where
  | sum
  | difference
deriving DecidableEq, Inhabited, Repr

def Overflow.message : Overflow → String
  | sum => "attempt to add with overflow"
  | difference => "attempt to subtract with overflow"

/-- A result, unless an operation on the way to it overflows. -/
abbrev Checked (α : Type) := Except Overflow α

namespace Checked

/-- `n`, if `word` is what it should be. -/
def ofWord (word : Int64) (n : Int) (e : Overflow) : Checked Int :=
  if word.toInt = n then return word.toInt else throw e

def sum (a b : Int) : Checked Int := ofWord (.ofInt a + .ofInt b) (a + b) .sum

def difference (a b : Int) : Checked Int := ofWord (.ofInt a - .ofInt b) (a - b) .difference

theorem ofWord_ofInt (n : Int) (e : Overflow) :
    ofWord (.ofInt n) n e = if Readable n then .ok n else .error e := by
  unfold ofWord
  by_cases hn : Readable n
  · have hword : (Int64.ofInt n).toInt = n :=
      Int64.toInt_ofInt_of_le hn.1 (Int.lt_of_le_sub_one hn.2)
    rw [if_pos hword, if_pos hn, hword]
    rfl
  · have hwraps : (Int64.ofInt n).toInt ≠ n := fun hword =>
      hn ⟨hword ▸ (Int64.ofInt n).le_toInt, hword ▸ Int.le_sub_one_of_lt (Int64.ofInt n).toInt_lt⟩
    rw [if_neg hwraps, if_neg hn]
    rfl

/-- A sum overflows exactly if no clock can show it, and is exact otherwise. -/
theorem sum_eq (a b : Int) : sum a b = if Readable (a + b) then .ok (a + b) else .error .sum := by
  rw [sum, ← Int64.ofInt_add, ofWord_ofInt]

/-- The same of a difference. -/
theorem difference_eq (a b : Int) :
    difference a b = if Readable (a - b) then .ok (a - b) else .error .difference := by
  rw [difference, ← Int64.ofInt_sub, ofWord_ofInt]

end Checked

end Playout
