/-!
# Reading text

A `TextReader` takes a value from the front of a text, or fails where the text does not fit.
`attempt` and `many` go back to where they stood, so a reader that is tried and fails has
read nothing.
-/

namespace Playout

/-- A cursor over characters. -/
abbrev TextReader := StateT (List Char) Option

namespace TextReader

/-! ### Characters -/

/-- One character of a class. -/
def satisfy (p : Char → Bool) : TextReader Char
  | c :: rest => if p c then some (c, rest) else none
  | [] => none

def char (c : Char) : TextReader Unit
  | d :: rest => if c = d then some ((), rest) else none
  | [] => none

/-- A given row of characters. -/
def literal (s : String) : TextReader Unit := s.toList.forM char

/-- All characters of a class that stand at the front; there may be none. -/
def span (p : Char → Bool) : TextReader (List Char) := fun cs =>
  some (cs.takeWhile p, cs.dropWhile p)

/-- At least one character of a class. -/
def span1 (p : Char → Bool) : TextReader (List Char) := do
  let c ← satisfy p
  return c :: (← span p)

def ended : TextReader Unit
  | [] => some ((), [])
  | _ :: _ => none

/-! ### Choice and repetition -/

/-- Run `r`; if it fails, nothing has been read. -/
def attempt {α : Type} (r : TextReader α) : TextReader (Option α) := fun cs =>
  match r cs with
  | some (a, rest) => some (some a, rest)
  | none => some (none, cs)

/-- `r` at most `limit` times, as often as it fits. -/
def atMost {α : Type} (r : TextReader α) : (limit : Nat) → List Char → List α × List Char
  | 0, cs => ([], cs)
  | limit + 1, cs =>
    match r cs with
    | some (a, rest) => let (as, rest) := atMost r limit rest; (a :: as, rest)
    | none => ([], cs)

/-- `r` as often as it fits, for a reader `r` that takes at least one character each time. -/
def many {α : Type} (r : TextReader α) : TextReader (List α) := fun cs =>
  some (atMost r cs.length cs)

/-- `item` at least once, with `between` between two of them. -/
def separated {α : Type} (item : TextReader α) (between : TextReader Unit) :
    TextReader (List α) := do
  let first ← item
  return first :: (← many (do between; item))

def all? {α : Type} (r : TextReader α) (s : String) : Option α :=
  match r s.toList with
  | some (a, []) => some a
  | _ => none

/-! ### Digits -/

/-- The value of a digit in the given base. -/
def digitValue? (base : Nat) (c : Char) : Option Nat :=
  let value :=
    if '0' ≤ c ∧ c ≤ '9' then c.toNat - '0'.toNat
    else if 'a' ≤ c ∧ c ≤ 'f' then c.toNat - 'a'.toNat + 10
    else if 'A' ≤ c ∧ c ≤ 'F' then c.toNat - 'A'.toNat + 10
    else base
  if value < base then some value else none

def digit (base : Nat) : TextReader Nat
  | c :: rest => (digitValue? base c).map (·, rest)
  | [] => none

/-- The number with the given digits, most significant first. -/
def ofDigits (base : Nat) (ds : List Nat) : Nat := ds.foldl (fun n d => n * base + d) 0

/-- Exactly `count` digits, as a number. -/
def fixedDigits (base count : Nat) : TextReader Nat := fun cs =>
  let (ds, rest) := atMost (digit base) count cs
  if ds.length = count then some (ofDigits base ds, rest) else none

/-- A number below `limit`. It takes every digit there is, of which there may be at most
`maxDigits`; unless `zeros` allows it, a number of several digits may not start with zero. -/
def number (base limit : Nat) (maxDigits : Option Nat) (zeros : Bool) : TextReader Nat := do
  let ds ← many (digit base)
  let tooLong := match maxDigits with
    | some k => decide (k < ds.length)
    | none => false
  let value := ofDigits base ds
  if ds.isEmpty || tooLong || (!zeros && decide (1 < ds.length) && ds.head? == some 0)
      || decide (limit ≤ value) then failure
  return value

end TextReader

end Playout
