import Playout.Clock.Estimate
import Playout.Time.Span

/-!
# Asking a time server

A `TimeLink` is the outside world of the client: a socket to the server and the local clock,
with a state of its own that every use may change. A `Client` keeps the last estimate that an
exchange or a batch gave; a failure leaves it as it was.
-/

namespace Playout.Clock

open Ntp

inductive NetworkError where
  | unresolved (host : String)
  | io (reason : String)
deriving DecidableEq, Inhabited, Repr

/-- Why there is no new estimate, or none at all. -/
inductive SyncError where
  | networkUnavailable (cause : NetworkError)
  | transport (cause : NetworkError)
  | malformed (cause : PacketError)
  | notSynchronized
deriving DecidableEq, Inhabited, Repr

namespace NetworkError

def message : NetworkError → String
  | unresolved host => s!"Could not resolve host '{host}'"
  | io reason => s!"IO error: {reason}"

end NetworkError

namespace SyncError

def message : SyncError → String
  | networkUnavailable cause => s!"Network unavailable: {cause.message}"
  | transport cause => s!"Transport error: {cause.message}"
  | malformed cause => s!"Malformed time response: {cause.message}"
  | notSynchronized => "Clock not synchronized"

end SyncError

/-- A socket to a time server and the local clock, over their state `σ`. -/
structure TimeLink (σ : Type) where
  connect : String → σ → Except NetworkError Unit × σ
  send : List UInt8 → σ → Except NetworkError Unit × σ
  receive : σ → Except NetworkError (List UInt8) × σ
  /-- Wait between the exchanges of a batch -/
  pause : σ → σ
  clock : σ → ClockReading

/-- An action on the link that may fail; the link's state is kept either way. -/
abbrev LinkM (σ : Type) := EStateM SyncError σ

namespace TimeLink

/-- Use one operation of the link; `wrap` says what its failure means. -/
def perform {σ α : Type} (wrap : NetworkError → SyncError)
    (op : σ → Except NetworkError α × σ) : LinkM σ α := fun s =>
  match op s with
  | (.ok a, s) => .ok a s
  | (.error e, s) => .error (wrap e) s

/-- One request and its reply. -/
def measure {σ : Type} (link : TimeLink σ) : LinkM σ Estimate := do
  let before := link.clock (← get)
  let request := Timestamp.ofUnixMicros before.wall
  perform .transport (link.send (Packet.request request).toBytes)
  let datagram ← perform .transport link.receive
  -- the time of arrival, before the reply is looked at
  let arrived := (link.clock (← get)).now
  match Packet.ofBytes (datagram.take Packet.size) with
  | .ok reply => return .ofExchange request before.now arrived reply
  | .error e => throw (.malformed e)

/-- `n` exchanges one after the other: the estimates, and the last failure. -/
def measureMany {σ : Type} (link : TimeLink σ) :
    Nat → σ → (List Estimate × Option SyncError) × σ
  | 0, s => (([], none), s)
  | n + 1, s =>
    match link.measure s with
    | .ok e s =>
      -- no pause behind the last exchange
      let ((es, failure), s) := link.measureMany n (if n = 0 then s else link.pause s)
      ((e :: es, failure), s)
    | .error err s =>
      let ((es, failure), s) := link.measureMany n (if n = 0 then s else link.pause s)
      -- of several failures the last is told
      ((es, failure.or (some err)), s)

end TimeLink

structure Client where
  estimate : Option Estimate := none
deriving DecidableEq, Inhabited, Repr

/-- An action of a client over a link. -/
abbrev ClientM (σ : Type) := EStateM SyncError (Client × σ)

namespace Client

/-- An action on the link, by a client whose memory it cannot touch. -/
def onLink {σ α : Type} (act : LinkM σ α) : ClientM σ α := fun (c, s) =>
  match act s with
  | .ok a s => .ok a (c, s)
  | .error e s => .error e (c, s)

/-- Keep an estimate and answer it. -/
def store {σ : Type} (e : Estimate) : ClientM σ Estimate := fun (_, s) => .ok e (⟨some e⟩, s)

def exchange {σ : Type} (link : TimeLink σ) : ClientM σ Estimate := do
  store (← onLink link.measure)

/-- Connect to `host` and make one exchange. -/
def request {σ : Type} (link : TimeLink σ) (host : String) : ClientM σ Estimate := do
  onLink (TimeLink.perform .networkUnavailable (link.connect host))
  exchange link

/-- Connect to `host`, make a batch of at least one exchange and keep the best estimate. -/
def requestBestOf {σ : Type} (link : TimeLink σ) (host : String) (count : Nat) :
    ClientM σ Estimate := do
  onLink (TimeLink.perform .networkUnavailable (link.connect host))
  -- an exchange that fails does not end the batch
  let (es, failure) ← onLink fun s =>
    let (outcome, s) := link.measureMany (max count 1) s
    .ok outcome s
  match Estimate.bestOf es with
  | some e => store e
  | none => throw (failure.getD .notSynchronized)

/-- Remote time, in microseconds since 1970, at the local reading `now`. -/
def remoteMicros (c : Client) (now : Int) : Except SyncError Int :=
  match c.estimate with
  | some e => return e.remoteMicros now
  | none => throw .notSynchronized

/-- The round trip of the estimate in microseconds; a negative one counts as none. -/
def roundTrip (c : Client) : Option Nat := c.estimate.map (·.roundTrip.toMicros.toNat)

end Client

/-! ### A machine without a network

Names can be looked up there, but no host can be reached. -/

/-- Every use of the network fails in the same way. -/
def NetworkError.unreachable : NetworkError := .io "Network is unreachable (os error 101)"

/-- The link of a machine without a network; its state is the local clock. A name with a NUL
character in it cannot even be looked up. -/
def TimeLink.offline : TimeLink ClockReading where
  connect host c :=
    (throw (if host.contains '\x00' then .unresolved host else .unreachable), c)
  send _ c := (throw .unreachable, c)
  receive c := (throw .unreachable, c)
  pause c := c
  clock c := c

end Playout.Clock
