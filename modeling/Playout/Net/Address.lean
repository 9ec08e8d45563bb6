import Playout.Text.Reader

/-!
# Network addresses

The text of addresses and of sockets. An IPv4 address is four decimal numbers; an IPv6
address is eight hexadecimal groups, of which one run of zeros may be left out, and its last
two groups may be written as an IPv4 address. A socket is an address and a port, with
brackets around an IPv6 address.

The written form is canonical: lower case, no leading zeros, the first of the longest runs
of at least two zero groups left out, and the dotted form for the IPv4 addresses that live
inside IPv6. The reader takes every spelling.
-/

namespace Playout.Net

structure Ipv4 where
  octets : Vector UInt8 4
deriving DecidableEq, Inhabited, Repr

structure Ipv6 where
  groups : Vector UInt16 8
deriving DecidableEq, Inhabited, Repr

/-- An address with a port, and for IPv6 the number of the network zone. -/
inductive Socket where
  | v4 (address : Ipv4) (port : UInt16)
  | v6 (address : Ipv6) (port : UInt16) (zone : UInt32)
deriving DecidableEq, Inhabited, Repr

/-! ### Writing -/

namespace Ipv4

def text (a : Ipv4) : String :=
  ".".intercalate (a.octets.toList.map fun o => toString o.toNat)

end Ipv4

namespace Ipv6

/-- A group in lower-case hexadecimal without leading zeros. -/
def groupText (g : UInt16) : String := String.ofList (Nat.toDigits 16 g.toNat)

def groupsText (gs : List UInt16) : String := ":".intercalate (gs.map groupText)

/-- How many zero groups stand at the front. -/
def zeroRun (gs : List UInt16) : Nat := (gs.takeWhile (· == 0)).length

/-- Start and length of the first longest run of zero groups; `start` counts from the front. -/
def longestRun : List UInt16 → Nat → Nat × Nat
  | [], start => (start, 0)
  | g :: gs, start =>
    let here := zeroRun (g :: gs)
    let later := longestRun gs (start + 1)
    -- of two runs of one length the first is left out
    if later.2 ≤ here then (start, here) else later

/-- The IPv4 address inside an IPv6 address whose prefix is `::ffff`. -/
def mapped? (a : Ipv6) : Option Ipv4 :=
  match a.groups.toList with
  | [0, 0, 0, 0, 0, 0xffff, g, h] =>
    some ⟨#v[(g >>> 8).toUInt8, g.toUInt8, (h >>> 8).toUInt8, h.toUInt8]⟩
  | _ => none

def text (a : Ipv6) : String :=
  match a.mapped? with
  | some v4 => s!"::ffff:{v4.text}"
  | none =>
    let gs := a.groups.toList
    let (start, length) := longestRun gs 0
    -- a single zero group is written
    if 1 < length then
      groupsText (gs.take start) ++ "::" ++ groupsText (gs.drop (start + length))
    else groupsText gs

end Ipv6

namespace Socket

def text : Socket → String
  | v4 address port => s!"{address.text}:{port}"
  | v6 address port zone =>
    if zone = 0 then s!"[{address.text}]:{port}" else s!"[{address.text}%{zone}]:{port}"

def port : Socket → UInt16
  | v4 _ port => port
  | v6 _ port _ => port

def withPort : Socket → UInt16 → Socket
  | v4 address _, port => v4 address port
  | v6 address _ zone, port => v6 address port zone

end Socket

/-! ### Reading -/

namespace Reading

open TextReader

/-- Four decimal numbers between points. -/
def ipv4 : TextReader Ipv4 := do
  let octet := number 10 256 (some 3) false
  let a ← octet
  char '.'
  let b ← octet
  char '.'
  let c ← octet
  char '.'
  let d ← octet
  return ⟨#v[UInt8.ofNat a, UInt8.ofNat b, UInt8.ofNat c, UInt8.ofNat d]⟩

/-- A separating colon, except in front of the first item. -/
def separator (first : Bool) : TextReader Unit := if first then pure () else char ':'

/-- One hexadecimal group. -/
def group (first : Bool) : TextReader UInt16 := do
  separator first
  return UInt16.ofNat (← number 16 65536 (some 4) true)

/-- An IPv4 address in the place of two groups. -/
def dotted (first : Bool) : TextReader (List UInt16) := do
  separator first
  let a ← ipv4
  return match a.octets.toList with
    | [a, b, c, d] => [a.toUInt16 * 256 + b.toUInt16, c.toUInt16 * 256 + d.toUInt16]
    | _ => []

/-- As many groups as there are, up to `room`; the flag says that they end in an IPv4 address,
which takes the place of two groups. -/
def groups : (room : Nat) → (first : Bool) → TextReader (List UInt16 × Bool)
  | 0, _ => return ([], false)
  | room + 1, first => do
    -- an IPv4 address needs the room of two groups
    let inner ← if 0 < room then attempt (dotted first) else pure none
    match inner with
    | some gs => return (gs, true)
    | none =>
      match ← attempt (group first) with
      | none => return ([], false)
      | some g =>
        let (gs, ipv4) ← groups room false
        return (g :: gs, ipv4)

/-- The address with groups `front` and `back` and zeros between them. -/
def assemble (front back : List UInt16) : Ipv6 :=
  let gs := front ++ List.replicate (8 - front.length - back.length) 0 ++ back
  ⟨Vector.ofFn fun i => gs.getD i 0⟩

/-- Eight groups, or fewer around a double colon. -/
def ipv6 : TextReader Ipv6 := do
  let (front, endsInIpv4) ← groups 8 true
  if front.length = 8 then return assemble front []
  -- an IPv4 address stands at the end or not at all
  if endsInIpv4 then failure
  char ':'
  char ':'
  -- the double colon stands for at least one group
  let (back, _) ← groups (8 - (front.length + 1)) true
  return assemble front back

def port : TextReader UInt16 := do
  char ':'
  return UInt16.ofNat (← number 10 65536 none true)

def socketV4 : TextReader Socket := do
  let a ← ipv4
  return .v4 a (← port)

/-- The zone number behind an address, 0 if there is none. -/
def zone : TextReader UInt32 := do
  let read : TextReader UInt32 := do
    char '%'
    return UInt32.ofNat (← number 10 UInt32.size none true)
  return (← attempt read).getD 0

def socketV6 : TextReader Socket := do
  char '['
  let a ← ipv6
  let z ← zone
  char ']'
  return .v6 a (← port) z

end Reading

def Socket.ofText? (s : String) : Option Socket :=
  (TextReader.all? Reading.socketV4 s).or (TextReader.all? Reading.socketV6 s)

/-- The socket at a host given by its address. -/
def Socket.ofHost? (host : String) (port : UInt16) : Option Socket :=
  ((TextReader.all? Reading.ipv4 host).map (.v4 · port)).or
    ((TextReader.all? Reading.ipv6 host).map (.v6 · port 0))

end Playout.Net
