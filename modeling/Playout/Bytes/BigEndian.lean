/-!
# Big-endian fields

Every packet format of this library is a row of unsigned fields written with the most significant
byte first. `encode k n` writes the low `8 * k` bits of `n` as `k` bytes and `decode` reads a row of
bytes as one number. `Reader` is a cursor over a byte string that takes such fields from its front,
and `Builder` puts them at the end of a buffer.
-/

namespace Playout.Bytes

/-! ### Numbers as bytes -/

/-- The low `k` bytes of `n`, most significant first. -/
def encode : Nat → Nat → List UInt8
  | 0, _ => []
  | k + 1, n => UInt8.ofNat (n / Nat.pow 256 k) :: encode k n

/-- The number whose base-256 digits, most significant first, are the given bytes. -/
def decode : List UInt8 → Nat
  | [] => 0
  | b :: bs => b.toNat * Nat.pow 256 bs.length + decode bs

def word16 (w : UInt16) : List UInt8 := encode 2 w.toNat

def word32 (w : UInt32) : List UInt8 := encode 4 w.toNat

def word64 (w : UInt64) : List UInt8 := encode 8 w.toNat

/-! ### Reading from the front -/

/-- A cursor over a byte string; it fails when the bytes run out. -/
abbrev Reader := StateT (List UInt8) Option

namespace Reader

/-- The next `k` bytes. -/
def bytes (k : Nat) : Reader (List UInt8) := fun bs =>
  if k ≤ bs.length then some (bs.take k, bs.drop k) else none

/-- The next `k` bytes as one number. -/
def number (k : Nat) : Reader Nat := do return decode (← bytes k)

def word8 : Reader UInt8 := do return UInt8.ofNat (← number 1)

def word16 : Reader UInt16 := do return UInt16.ofNat (← number 2)

def word32 : Reader UInt32 := do return UInt32.ofNat (← number 4)

def word64 : Reader UInt64 := do return UInt64.ofNat (← number 8)

/-- Everything that is left. -/
def rest : Reader (List UInt8) := fun bs => some (bs, [])

end Reader

/-! ### Writing at the end -/

/-- What appends to a buffer. Where it fails, the buffer holds what was written until then. -/
abbrev Builder (ε : Type) := EStateM ε (List UInt8)

/-- Append some bytes. -/
def Builder.put {ε : Type} (bytes : List UInt8) : Builder ε Unit := modify (· ++ bytes)

/-- Write over the bytes from place `i` on. -/
def Builder.overwrite {ε : Type} (i : Nat) (bytes : List UInt8) : Builder ε Unit :=
  modify fun buffer => buffer.take i ++ bytes ++ buffer.drop (i + bytes.length)

end Playout.Bytes
