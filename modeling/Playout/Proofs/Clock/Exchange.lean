import Playout.Clock.Estimate
import Playout.Proofs.Ntp.Units

/-!
# How good one exchange is

A `Passage` is what really happens in an exchange: how far the server is ahead of the local clock,
and how long the request, the server and the reply take. The estimate is off by half the difference
of the two directions, rounded, so by at most half the round trip:

    ofExchange_accurate : 2 * |offset - x.offset| ≤ roundTrip + 1

The mean of what the two directions show is taken by adding and halving, and the sum is a word of
64 bits like its summands. It wraps around when the clocks are about 34 years apart, and then the
offset is wrong by 68 years (`accurate_iff_representable`). So a host whose clock starts in 1970 is
told the year 1955 by a server of the year 2024 (`freshHost_misled`).
-/

namespace Playout.Clock

open Ntp

/-- What happens in an exchange, in units of `2 ^ -32` seconds. -/
structure Passage where
  /-- Server clock less local clock -/
  offset : Int
  /-- The request on its way -/
  out : Nat
  /-- From the arrival of the request to the departure of the reply -/
  atServer : Nat
  /-- The reply on its way -/
  back : Nat
deriving DecidableEq, Inhabited, Repr

namespace Passage

/-- Local time from the request to the reply. -/
def elapsed (x : Passage) : Int := x.out + x.atServer + x.back

/-- What the two directions show of the offset, added up. -/
def shown (x : Passage) : Int := 2 * x.offset + x.out - x.back

/-- The reply of a server that notes when it is asked and when it answers. -/
structure Answers (x : Passage) (request : Timestamp) (reply : Packet) : Prop where
  echoed : reply.originate = request
  received : reply.receive = request.later (x.offset + x.out)
  transmitted : reply.transmit = reply.receive.later x.atServer

/-- Such a reply. -/
def reply (x : Passage) (request : Timestamp) : Packet where
  leap := 0
  version := 3
  mode := Packet.serverMode
  stratum := 1
  originate := request
  receive := request.later (x.offset + x.out)
  transmit := (request.later (x.offset + x.out)).later x.atServer

theorem answers_reply (x : Passage) (request : Timestamp) : x.Answers request (x.reply request) :=
  ⟨rfl, rfl, rfl⟩

/-- The server's time when the reply arrives. -/
def arrival (x : Passage) (reply : Packet) : Timestamp := reply.transmit.later x.back

def unitsPerMinute : Nat := 60 * unitsPerSecond

/-- No part of the exchange takes a minute. -/
structure Brief (x : Passage) : Prop where
  out : x.out < unitsPerMinute
  atServer : x.atServer < unitsPerMinute
  back : x.back < unitsPerMinute

/-- The estimate is right to within half the round trip and the rounding of a half. -/
structure Accurate (x : Passage) (reply : Packet) (e : Estimate) : Prop where
  offset : 2 * (e.offset.units - x.offset).natAbs ≤ x.out + x.back + 1
  remote : ∃ error : Int, 2 * error.natAbs ≤ x.out + x.back + 1 ∧
    e.remote = (x.arrival reply).later error

/-! ## What the parts of an estimate are -/

section Exchange

variable {x : Passage} {request : Timestamp} {sent arrived : Int} {reply : Packet}

theorem Answers.transmit_eq (h : x.Answers request reply) :
    reply.transmit = request.later (x.offset + x.out + x.atServer) := by
  rw [h.transmitted, h.received, Timestamp.later_later]

theorem Answers.arrival_eq (h : x.Answers request reply) :
    x.arrival reply = request.later (x.offset + x.elapsed) := by
  unfold arrival elapsed
  rw [h.transmit_eq, Timestamp.later_later]
  congr 1
  omega

variable (hreply : x.Answers request reply)
  (helapsed : (Interval.ofMicros (arrived - sent)).units = x.elapsed)

include helapsed in
/-- The local time of the arrival. -/
theorem request_add_elapsed (request : Timestamp) :
    request + Interval.ofMicros (arrived - sent) = request.later x.elapsed := by
  rw [← helapsed, Timestamp.later_units]

include hreply helapsed

/-- The server's own time is taken off. -/
theorem roundTrip_eq :
    (Estimate.ofExchange request sent arrived reply).roundTrip.units = x.out + x.back := by
  have hrange := (Interval.ofMicros (arrived - sent)).representable_units
  show (Interval.ofMicros (arrived - sent) - (reply.transmit - reply.receive)).units = _
  rw [← Interval.ofUnits_units (Interval.ofMicros (arrived - sent)), helapsed, hreply.transmitted,
    Timestamp.later_sub_self, Interval.ofUnits_sub, Interval.units_ofUnits_of_representable]
  · unfold elapsed
    omega
  · rw [helapsed] at hrange
    unfold Representable elapsed at *
    omega

/-- The offset is half of what the two directions show, which may have wrapped around. -/
theorem offset_eq : (Estimate.ofExchange request sent arrived reply).offset.units =
    (x.shown.bmod (2 ^ 64)).tdiv 2 := by
  show (reply.receive - reply.originate +
    (reply.transmit - (request + Interval.ofMicros (arrived - sent)))).half.units = _
  rw [request_add_elapsed helapsed, hreply.echoed, hreply.transmit_eq, Timestamp.later_sub_later,
    hreply.received, Timestamp.later_sub_self, Interval.ofUnits_add, Interval.units_half,
    Interval.units_ofUnits]
  congr 2
  unfold shown elapsed
  omega

/-- The remote moment is as far off as the offset. -/
theorem remote_eq : (Estimate.ofExchange request sent arrived reply).remote =
    (x.arrival reply).later
      ((Estimate.ofExchange request sent arrived reply).offset.units - x.offset) := by
  have hremote : (Estimate.ofExchange request sent arrived reply).remote =
      request + Interval.ofMicros (arrived - sent) +
        (Estimate.ofExchange request sent arrived reply).offset := rfl
  rw [hremote, request_add_elapsed helapsed, hreply.arrival_eq, ← Timestamp.later_units,
    Timestamp.later_later, Timestamp.later_later]
  congr 1
  omega

/-- What the two directions show is halved toward zero. -/
theorem offset_of_representable (hshown : Representable x.shown) :
    2 * ((Estimate.ofExchange request sent arrived reply).offset.units - x.offset).natAbs ≤
      x.out + x.back + 1 := by
  have hwrapped : x.shown.bmod (2 ^ 64) = x.shown := by
    rw [← Interval.units_ofUnits, Interval.units_ofUnits_of_representable hshown]
  have hhalf := natAbs_sub_two_mul_tdiv_le x.shown
  rw [offset_eq hreply helapsed, hwrapped]
  unfold shown at *
  omega

/-- A sum that wraps around puts the offset wrong by 68 years. -/
theorem representable_of_offset (hbrief : x.Brief)
    (hoffset : 2 * ((Estimate.ofExchange request sent arrived reply).offset.units -
      x.offset).natAbs ≤ x.out + x.back + 1) : Representable x.shown := by
  have hhalf := natAbs_sub_two_mul_tdiv_le (x.shown.bmod (2 ^ 64))
  have hout := hbrief.out
  have hback := hbrief.back
  rw [offset_eq hreply helapsed] at hoffset
  unfold unitsPerMinute unitsPerSecond at hout hback
  unfold Representable
  generalize hshown : x.shown = shown at *
  unfold Passage.shown at hshown
  rw [Int.bmod_def] at hhalf hoffset
  -- either sum may have wrapped around; where one has, the offset is beyond the bound
  split at hhalf <;> split at hoffset <;> omega

end Exchange

/-! ## How far it is off -/

/-- **An exchange is accurate.** If the sum of what the two directions show is representable, the
round trip is what the request and the reply took, the offset is off by at most half of it and the
rounding of a half, and the remote moment by exactly as much as the offset. A later reading of the
remote clock adds the local time since then, so it is off by as much as the first one. -/
theorem ofExchange_accurate (x : Passage) (request : Timestamp) (sent arrived : Int)
    (reply : Packet) (hreply : x.Answers request reply)
    (helapsed : (Interval.ofMicros (arrived - sent)).units = x.elapsed)
    (hshown : Representable x.shown) :
    let e := Estimate.ofExchange request sent arrived reply
    e.roundTrip.units = x.out + x.back ∧
      2 * ((e.offset.units - x.offset).natAbs : Int) ≤ e.roundTrip.units + 1 ∧
      e.remote = (x.arrival reply).later (e.offset.units - x.offset) ∧
      (∀ now, e.remoteMicros now = e.remote.toUnixMicros + (now - arrived)) ∧
      ∀ now, e.remoteMicros now - ((x.arrival reply).toUnixMicros + (now - arrived)) =
        e.remote.toUnixMicros - (x.arrival reply).toUnixMicros := by
  intro e
  -- what the server takes cancels, and half the difference of the two ways is left
  have hround : e.roundTrip.units = x.out + x.back := roundTrip_eq hreply helapsed
  have hoffset := offset_of_representable hreply helapsed hshown
  have hreading (now : Int) :
      e.remoteMicros now = e.remote.toUnixMicros + (now - arrived) := rfl
  refine ⟨hround, ?_, remote_eq hreply helapsed, hreading, ?_⟩
  · rw [hround]
    exact_mod_cast hoffset
  · intro now
    rw [hreading]
    omega

/-- A request that takes 1/32 of a second, and its reply that takes none, to a server that is 3/32
of a second ahead and answers after 1/32 of a second. -/
def uneven : Passage := { offset := 3 * 2 ^ 27, out := 2 ^ 27, atServer := 2 ^ 27, back := 0 }

/-- The offset is off by half the round trip. -/
theorem uneven_off_by_half :
    let request := Timestamp.ofUnixMicros 1000000000
    let reply := uneven.reply request
    let e := Estimate.ofExchange request 5000000 5062500 reply
    uneven.Answers request reply ∧
      (Interval.ofMicros (5062500 - 5000000)).units = uneven.elapsed ∧
      Representable uneven.shown ∧ e.roundTrip.units = 2 ^ 27 ∧
      e.remote = (uneven.arrival reply).later (2 ^ 26) := by
  intro request reply e
  have hreply : uneven.Answers request reply := uneven.answers_reply request
  have helapsed : (Interval.ofMicros (5062500 - 5000000)).units = uneven.elapsed := by
    decide +kernel
  have hshown : Representable uneven.shown := by decide +kernel
  have hoffset : e.offset.units - uneven.offset = 2 ^ 26 := by decide +kernel
  obtain ⟨hround, -, hremote, -⟩ :=
    ofExchange_accurate uneven request 5000000 5062500 reply hreply helapsed hshown
  rw [hoffset] at hremote
  exact ⟨hreply, helapsed, hshown, hround, hremote⟩

/-- **When an exchange is accurate.** If no part of it takes a minute, the offset and the remote
moment are right to within half the round trip and the rounding of a half exactly if the sum of what
the two directions show does not wrap around. -/
theorem accurate_iff_representable (x : Passage) (request : Timestamp) (sent arrived : Int)
    (reply : Packet) (hreply : x.Answers request reply)
    (helapsed : (Interval.ofMicros (arrived - sent)).units = x.elapsed) (hbrief : x.Brief) :
    x.Accurate reply (Estimate.ofExchange request sent arrived reply) ↔ Representable x.shown := by
  constructor
  · intro h
    exact representable_of_offset hreply helapsed hbrief h.offset
  · intro hshown
    have hoffset := offset_of_representable hreply helapsed hshown
    exact ⟨hoffset, _, hoffset, remote_eq hreply helapsed⟩

theorem uneven_accurate :
    uneven.Brief ∧ uneven.Accurate (uneven.reply (.ofUnixMicros 1000000000))
      (Estimate.ofExchange (.ofUnixMicros 1000000000) 5000000 5062500
        (uneven.reply (.ofUnixMicros 1000000000))) := by
  have hbrief : uneven.Brief := ⟨by decide, by decide, by decide⟩
  have helapsed : (Interval.ofMicros (5062500 - 5000000)).units = uneven.elapsed := by
    decide +kernel
  refine ⟨hbrief, ?_⟩
  exact (accurate_iff_representable uneven _ 5000000 5062500 _ (uneven.answers_reply _) helapsed
    hbrief).mpr (by decide +kernel)

/-- A host whose clock starts in 1970 asks a server of the year 2024, 1/64 of a second away. -/
def freshHost : Passage :=
  { offset := 1704067200 * unitsPerSecond, out := 2 ^ 26, atServer := 0, back := 2 ^ 26 }

/-- The host is told a time 68 years before that of the server, in the year 1955. -/
theorem freshHost_misled :
    let request := Timestamp.ofUnixMicros 0
    let reply := freshHost.reply request
    let e := Estimate.ofExchange request 0 31250 reply
    freshHost.Answers request reply ∧
      (Interval.ofMicros (31250 - 0)).units = freshHost.elapsed ∧ freshHost.Brief ∧
      (freshHost.arrival reply).toUnixMicros = 1704067200031250 ∧
      e.remote.toUnixMicros = -443416447968750 ∧ ¬ freshHost.Accurate reply e := by
  intro request reply e
  refine ⟨freshHost.answers_reply request, by decide +kernel,
    ⟨by decide, by decide, by decide⟩, by decide +kernel, by decide +kernel, ?_⟩
  intro h
  -- the sum of the two directions has wrapped around
  have hfar : ¬ 2 * (e.offset.units - freshHost.offset).natAbs ≤
      freshHost.out + freshHost.back + 1 := by decide +kernel
  exact hfar h.offset

end Passage

end Playout.Clock
