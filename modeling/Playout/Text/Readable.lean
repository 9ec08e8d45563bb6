import Playout.Text.Decimal
import Playout.Time.Span

/-!
# Readable quantities

Amounts of data, data rates, microseconds and spans of time as people read them: a large
quantity is shown in the largest unit that it reaches.
-/

namespace Playout.Text

/-- A unit of measure: how many basic units it holds, and its name. -/
structure Scale where
  size : Nat
  name : String

/-- `n` in the first scale that it reaches, with two decimal places, else in `basic` units. -/
def scaled (scales : List Scale) (basic : String) (n : Nat) : String :=
  match scales.find? (fun s => decide (s.size ≤ n)) with
  | some s => s!"{quotient 2 n s.size} {s.name}"
  | none => s!"{n} {basic}"

/-- An amount of data. -/
def bytes (n : Nat) : String :=
  scaled [⟨1024 * 1024 * 1024, "GB"⟩, ⟨1024 * 1024, "MB"⟩, ⟨1024, "KB"⟩] "B" n

/-- A data rate in bits per second. -/
def bandwidth (n : Nat) : String :=
  scaled [⟨1000000000, "Gbps"⟩, ⟨1000000, "Mbps"⟩, ⟨1000, "Kbps"⟩] "bps" n

/-- A signed number of microseconds: seconds, milliseconds or microseconds. -/
def micros (us : Int) : String :=
  let sign := if us < 0 then "-" else ""
  let n := us.natAbs
  if 1000000 ≤ n then s!"{sign}{quotient 3 n 1000000}s"
  else if 1000 ≤ n then s!"{sign}{quotient 2 n 1000}ms"
  else s!"{sign}{n}µs"

/-- Microseconds since 1970 as whole seconds, rounded down, and six decimal places. -/
def unixMicros (us : Int) : String :=
  let fraction := padded 6 (us % 1000000).toNat
  s!"{us / 1000000}.{fraction}"

/-- A span of time in hours, minutes and seconds. -/
def span (d : Span) : String :=
  let hours := d.seconds / 3600
  let minutes := d.seconds % 3600 / 60
  let seconds := d.seconds % 60
  if 0 < hours then s!"{hours}h {padded 2 minutes}m {padded 2 seconds}s"
  else if 0 < minutes then s!"{minutes}m {padded 2 seconds}s"
  else s!"{seconds}s"

end Playout.Text
