/-!
# Spans of time and clock readings

A `Span` is a length of time, never negative. Deadlines and clock readings are whole
microseconds counted by an integer; `Span.toMicros` leads from the first to the second and
stops at the largest 64-bit reading.
-/

namespace Playout

/-- The largest microsecond count that a clock can show. -/
def maxMicros : Int := Int64.maxValue.toInt

/-- A length of time in nanoseconds. -/
structure Span where
  nanos : Nat
deriving DecidableEq, Inhabited, Repr

namespace Span

/-- `s` seconds and `n` nanoseconds. -/
def ofParts (s n : Nat) : Span := ⟨s * 1000000000 + n⟩

def ofSeconds (s : Nat) : Span := ⟨s * 1000000000⟩

def ofMillis (ms : Nat) : Span := ⟨ms * 1000000⟩

def ofMicros (us : Nat) : Span := ⟨us * 1000⟩

/-- The wait until a moment `us` microseconds ahead: none if it has passed. -/
def ofDelay (us : Int) : Span := ofMicros us.toNat

def seconds (d : Span) : Nat := d.nanos / 1000000000

def subsecNanos (d : Span) : Nat := d.nanos % 1000000000

def millis (d : Span) : Nat := d.nanos / 1000000

/-- Whole microseconds, at most `maxMicros`. -/
def toMicros (d : Span) : Int := min ((d.nanos / 1000 : Nat) : Int) maxMicros

end Span

/-- What a clock shows: a steady counter and the calendar, both in microseconds. -/
structure ClockReading where
  now : Int := 0
  /-- Microseconds since 1970-01-01 00:00:00 UTC -/
  wall : Int := 0
deriving DecidableEq, Inhabited, Repr

namespace ClockReading

/-- Both readings `us` microseconds later. -/
def advance (c : ClockReading) (us : Int) : ClockReading := ⟨c.now + us, c.wall + us⟩

/-- Both readings after a wait. -/
def wait (c : ClockReading) (d : Span) : ClockReading := c.advance d.toMicros

/-- The steady counter jumps; the calendar stays. -/
def setNow (c : ClockReading) (us : Int) : ClockReading := { c with now := us }

end ClockReading

end Playout
