/-!
# Fixed-point network time (NTP)

A `Timestamp` counts seconds since 1900-01-01 in its upper 32 bits and a fraction of a
second over `2 ^ 32` in its lower. The difference of two timestamps is a signed `Interval` of
the same scale. Sums and differences wrap around at 64 bits, so that the difference of two
close times is right even where the count of seconds starts over.

Microseconds become fixed point by rounding toward zero and come back by rounding down.
-/

namespace Playout.Ntp

def microsPerSecond : Nat := 1000000

/-- Units of `2 ^ -32` seconds in a second. -/
def unitsPerSecond : Nat := 0x100000000

/-- Seconds from 1900-01-01 to 1970-01-01: seventy years with seventeen leap days. -/
def unixOffsetSeconds : Nat := (70 * 365 + 17) * 24 * 60 * 60

/-- The same in microseconds. -/
def unixOffset : Int := unixOffsetSeconds * microsPerSecond

/-- `us` microseconds in units of `2 ^ -32` seconds, rounded down. -/
def fixedOfMicros (us : Nat) : Nat :=
  us / microsPerSecond * unitsPerSecond + unitsPerSecond * (us % microsPerSecond) / microsPerSecond

/-! ### Signed spans -/

/-- A signed span in units of `2 ^ -32` seconds. -/
structure Interval where
  raw : Int64
deriving DecidableEq, Inhabited, Repr

namespace Interval

instance : LT Interval := ⟨fun a b => a.raw < b.raw⟩
instance : LE Interval := ⟨fun a b => a.raw ≤ b.raw⟩
instance (a b : Interval) : Decidable (a < b) := inferInstanceAs (Decidable (a.raw < b.raw))
instance (a b : Interval) : Decidable (a ≤ b) := inferInstanceAs (Decidable (a.raw ≤ b.raw))
instance : Add Interval := ⟨fun a b => ⟨a.raw + b.raw⟩⟩
instance : Sub Interval := ⟨fun a b => ⟨a.raw - b.raw⟩⟩
instance : Neg Interval := ⟨fun a => ⟨-a.raw⟩⟩

/-- A span of microseconds, its magnitude rounded down. -/
def ofMicros (us : Int) : Interval :=
  let magnitude : Interval := ⟨Int64.ofNat (fixedOfMicros us.natAbs)⟩
  if us < 0 then -magnitude else magnitude

/-- Microseconds, rounded down. -/
def toMicros (d : Interval) : Int := d.raw.toInt * microsPerSecond / unitsPerSecond

/-- Half the span, rounded toward zero. -/
def half (d : Interval) : Interval := ⟨Int64.ofInt (d.raw.toInt.tdiv 2)⟩

/-- The arithmetic mean, rounded toward zero; nothing has none. -/
def mean (ds : List Interval) : Option Interval :=
  if ds.isEmpty then none
  else
    let total : Int := ds.foldr (fun d total => d.raw.toInt + total) 0
    some ⟨Int64.ofInt (total.tdiv ds.length)⟩

def label (d : Interval) : String := s!"NtpDuration({d.toMicros}us)"

end Interval

/-! ### Moments -/

/-- A moment in units of `2 ^ -32` seconds since 1900-01-01. -/
structure Timestamp where
  raw : UInt64
deriving DecidableEq, Inhabited, Repr

namespace Timestamp

instance : LT Timestamp := ⟨fun a b => a.raw < b.raw⟩
instance : LE Timestamp := ⟨fun a b => a.raw ≤ b.raw⟩
instance (a b : Timestamp) : Decidable (a < b) := inferInstanceAs (Decidable (a.raw < b.raw))
instance (a b : Timestamp) : Decidable (a ≤ b) := inferInstanceAs (Decidable (a.raw ≤ b.raw))
instance : HAdd Timestamp Interval Timestamp := ⟨fun t d => ⟨t.raw + d.raw.toUInt64⟩⟩
instance : HSub Timestamp Timestamp Interval := ⟨fun a b => ⟨(a.raw - b.raw).toInt64⟩⟩

def seconds (t : Timestamp) : Nat := t.raw.toNat / unitsPerSecond

/-- The fraction of a second, over `2 ^ 32`. -/
def fraction (t : Timestamp) : Nat := t.raw.toNat % unitsPerSecond

/-- A moment given in microseconds since 1970; those before 1900 become the first. -/
def ofUnixMicros (us : Int) : Timestamp :=
  let sinceEpoch := max 0 (min (us + unixOffset) Int64.maxValue.toInt)
  ⟨UInt64.ofNat (fixedOfMicros sinceEpoch.toNat)⟩

/-- Microseconds since 1900, rounded down. -/
def toMicros (t : Timestamp) : Nat :=
  t.seconds * microsPerSecond + t.fraction * microsPerSecond / unitsPerSecond

def toUnixMicros (t : Timestamp) : Int := t.toMicros - unixOffset

/-- The moment as diagnostics show it: seconds, and the fraction in eight hexadecimal digits. -/
def label (t : Timestamp) : String :=
  let digits := String.ofList (Nat.toDigits 16 t.fraction)
  let zeros := String.ofList (List.replicate (8 - digits.length) '0')
  s!"NtpTimestamp({t.seconds}.{zeros}{digits})"

end Timestamp

end Playout.Ntp
