/-!
# Decimal text of a quotient

Statistics show quotients with a fixed number of decimal places. The quotient is first
rounded to 53 binary digits, and that binary number is then rounded to the decimal places.
Both roundings go to the nearest value, and a tie goes to the even neighbour. All of it is
arithmetic on natural numbers.
-/

namespace Playout.Text

/-! ### Rounding to a whole number -/

/-- The whole number nearest to `n / d`; halfway, the even one. -/
def roundDiv (n d : Nat) : Nat :=
  let q := n / d
  let r := n % d
  if 2 * r < d then q
  else if d < 2 * r then q + 1
  else q + q % 2

/-! ### Rounding to binary places -/

/-- A non-negative quotient. -/
structure Ratio where
  num : Nat
  den : Nat
deriving DecidableEq, Inhabited, Repr

namespace Ratio

/-- Binary digits that a rounded number keeps. -/
def binaryDigits : Nat := 53

/-- The greatest `k` with `2 ^ k ≤ num / den`. -/
def log2 (r : Ratio) : Int :=
  let guess : Int := (r.num.log2 : Int) - r.den.log2
  let fits := if 0 ≤ guess then r.den * Nat.pow 2 guess.toNat ≤ r.num
    else r.den ≤ r.num * Nat.pow 2 (-guess).toNat
  if fits then guess else guess - 1

/-- The nearest number of `binaryDigits` binary digits; a tie goes to the even one. -/
def toBinary (r : Ratio) : Ratio :=
  if r.num = 0 then ⟨0, 1⟩
  else
    let shift := (binaryDigits : Int) - 1 - r.log2
    if 0 ≤ shift then
      let scale := Nat.pow 2 shift.toNat
      ⟨roundDiv (r.num * scale) r.den, scale⟩
    else
      let scale := Nat.pow 2 (-shift).toNat
      ⟨roundDiv r.num (r.den * scale) * scale, 1⟩

/-- The quotient of two whole numbers as binary arithmetic gives it. -/
def binaryQuotient (n d : Nat) : Ratio :=
  let n := toBinary ⟨n, 1⟩
  toBinary ⟨n.num, n.den * d⟩

end Ratio

/-! ### Writing it down -/

/-- `n` in decimal, with zeros in front up to `width` digits. -/
def padded (width n : Nat) : String :=
  let digits := toString n
  String.ofList (List.replicate (width - digits.length) '0') ++ digits

/-- A quotient with the given number of decimal places. -/
def fixedPlaces (places : Nat) (r : Ratio) : String :=
  let scale := Nat.pow 10 places
  let scaled := roundDiv (r.num * scale) r.den
  let fraction := padded places (scaled % scale)
  s!"{scaled / scale}.{fraction}"

/-- `n / d` with the given number of decimal places, by way of binary arithmetic. -/
def quotient (places n d : Nat) : String := fixedPlaces places (.binaryQuotient n d)

/-- `s` with blanks behind it up to `width` characters. -/
def padRight (width : Nat) (s : String) : String :=
  s ++ String.ofList (List.replicate (width - s.length) ' ')

end Playout.Text
