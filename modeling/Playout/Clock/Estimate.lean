import Playout.Ntp.Packet

/-!
# Estimating a remote clock

One request and its reply give an `Estimate`: a remote moment, the local reading that it
belongs to, the round trip, and the offset of the remote clock. The offset is the mean of
what the two directions show, so an asymmetry of the path puts it wrong by at most half the
round trip.

`bestOf` combines a batch: it trusts the third with the shortest round trips, averages their
offsets and applies the average to the exchange with the shortest of all.
-/

namespace Playout.Clock

open Ntp

/-- What is known about the remote clock. -/
structure Estimate where
  /-- Remote time at `reading` -/
  remote : Timestamp
  /-- Local steady reading in microseconds, when the reply arrived -/
  reading : Int
  /-- Time on the network, the server's own time taken off -/
  roundTrip : Interval
  /-- Remote clock less local wall clock -/
  offset : Interval
deriving DecidableEq, Inhabited, Repr

namespace Estimate

/-- From a request stamped `request` and sent at `sent`, and its reply, arrived at `arrived`. -/
def ofExchange (request : Timestamp) (sent arrived : Int) (reply : Packet) : Estimate :=
  let elapsed := Interval.ofMicros (arrived - sent)
  let arrival := request + elapsed
  let offset := ((reply.receive - reply.originate) + (reply.transmit - arrival)).half
  { remote := arrival + offset
    reading := arrived
    roundTrip := elapsed - (reply.transmit - reply.receive)
    offset }

/-- The estimates, shortest round trip first; among equals the earlier stays first. -/
def ranked (es : List Estimate) : List Estimate :=
  es.mergeSort (fun a b => decide (a.roundTrip ≤ b.roundTrip))

/-- How many of `n` estimates are averaged. -/
def kept (n : Nat) : Nat := max (n / 3) 1

/-- The best estimate that a batch supports. -/
def bestOf (es : List Estimate) : Option Estimate :=
  match ranked es with
  | [] => none
  | best :: rest =>
    (Interval.mean (((best :: rest).take (kept es.length)).map (·.offset))).map fun offset =>
      { best with remote := best.remote + (offset - best.offset), offset }

def remoteMicros (e : Estimate) (now : Int) : Int := e.remote.toUnixMicros + (now - e.reading)

end Estimate

end Playout.Clock
