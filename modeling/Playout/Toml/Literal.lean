import Playout.Text.Reader
import Playout.Toml.Value

/-!
# Numbers, truth values and moments

Whole numbers have 64 bits and a sign; they are decimal, or hexadecimal, octal or binary
behind `0x`, `0o` and `0b`. An underscore may part two digits. Numbers with a fraction or an
exponent are kept as they are written, less those that are too great for 64-bit binary
numbers. Dates and times must exist in the calendar and on the clock, where a minute may
have a leap second.
-/

namespace Playout.Toml.Literal

open TextReader

/-- What `r` reads, as it is written. -/
def written (r : TextReader Unit) : TextReader String := fun cs =>
  (r cs).map fun ((), rest) => (String.ofList (cs.take (cs.length - rest.length)), rest)

/-! ### Numbers -/

/-- Digits; one underscore may stand between two of them. -/
def digitRun (base : Nat) : TextReader (List Nat) := do
  let first ← digit base
  return first :: (← many do
    let _ ← attempt (char '_')
    digit base)

/-- Whether a minus sign is there; a plus sign may be. -/
def sign : TextReader Bool := do
  let mark ← attempt (satisfy fun c => c == '+' || c == '-')
  return mark == some '-'

/-- The digits of a decimal number: zero, or digits that do not start with zero. -/
def whole : TextReader (List Nat) := do
  let ds ← digitRun 10
  if 1 < ds.length ∧ ds.head? = some 0 then failure
  return ds

/-- A whole number without its bounds. -/
def unbounded : TextReader Int :=
  let behind (mark : String) (base : Nat) : TextReader Int := do
    literal mark
    return ofDigits base (← digitRun base)
  -- a sign may stand in front of decimal digits only
  behind "0x" 16 <|> behind "0o" 8 <|> behind "0b" 2 <|> do
    let negative ← sign
    let n : Int := ofDigits 10 (← whole)
    return if negative then -n else n

/-- Whole numbers have 64 bits, one of them for the sign. -/
def isWhole (n : Int) : Bool := Int64.minValue.toInt ≤ n && n ≤ Int64.maxValue.toInt

def integer : TextReader Value := do
  let n ← unbounded
  if isWhole n then return .integer n else failure

/-- `n * 10 ^ e` is rounded to no finite binary number of 64 bits. Far from the bound the
number of digits decides. -/
def isTooGreat (n : Nat) (e : Int) : Bool :=
  let bound := Nat.pow 2 1024 - Nat.pow 2 970
  let digits : Int := (Nat.toDigits 10 n).length
  if n = 0 ∨ digits + e < 300 then false
  else if 310 < digits + e then true
  else if 0 ≤ e then bound ≤ n * Nat.pow 10 e.toNat
  else bound * Nat.pow 10 (-e).toNat ≤ n

/-- The power of ten behind a number. -/
def exponent : TextReader Int := do
  let _ ← satisfy fun c => c == 'e' || c == 'E'
  let negative ← sign
  let n : Int := ofDigits 10 (← digitRun 10)
  return if negative then -n else n

/-- A number with a fraction or an exponent; there is no bound for negative ones. -/
def fractional : TextReader Unit := do
  let negative ← sign
  let ds ← whole
  let fraction ← attempt do
    char '.'
    digitRun 10
  let power ← attempt exponent
  if fraction.isNone && power.isNone then failure
  let places := fraction.getD []
  if !negative && isTooGreat (ofDigits 10 (ds ++ places)) (power.getD 0 - places.length) then
    failure

/-- Infinity, or no number. -/
def special : TextReader Unit := do
  let _ ← sign
  literal "inf" <|> literal "nan"

def float : TextReader Value := .float <$> written (fractional <|> special)

/-! ### Truth values -/

def boolean : TextReader Value :=
  (do literal "true"; return .boolean true) <|> do literal "false"; return .boolean false

/-! ### Moments -/

/-- Two digits between bounds. -/
def twoDigits (low high : Nat) : TextReader Nat := do
  let n ← fixedDigits 10 2
  if low ≤ n ∧ n ≤ high then return n else failure

def isLeapYear (year : Nat) : Bool := year % 4 == 0 && (year % 100 != 0 || year % 400 == 0)

def daysIn (year month : Nat) : Nat :=
  match month with
  | 2 => if isLeapYear year then 29 else 28
  | 4 | 6 | 9 | 11 => 30
  | _ => 31

def date : TextReader Unit := do
  let year ← fixedDigits 10 4
  char '-'
  let month ← twoDigits 1 12
  char '-'
  let _ ← twoDigits 1 (daysIn year month)

def timeOfDay : TextReader Unit := do
  let _ ← twoDigits 0 23
  char ':'
  let _ ← twoDigits 0 59
  char ':'
  let _ ← twoDigits 0 60
  let _ ← attempt do
    char '.'
    span1 Char.isDigit

/-- The distance from universal time. -/
def zone : TextReader Unit := (char 'Z' <|> char 'z') <|> do
  char '+' <|> char '-'
  let _ ← twoDigits 0 23
  char ':'
  let _ ← twoDigits 0 59

def moment : TextReader Value := .moment <$> written (dated <|> timeOfDay)
where
  dated := do
    date
    let _ ← attempt do
      char 'T' <|> char 't' <|> char ' '
      timeOfDay
      attempt zone

/-- Any of them. A moment goes before the number that it starts with. -/
def read : TextReader Value := boolean <|> moment <|> float <|> integer

end Playout.Toml.Literal
