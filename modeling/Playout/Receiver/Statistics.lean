import Playout.Reorder.Buffer
import Playout.Sequence.Extender
import Playout.Text.Readable

/-!
# Receiver statistics

The counters of a receiver at one moment, and the line that shows them.
-/

namespace Playout

structure ReceiverStatistics where
  packets : Nat := 0
  bytesIn : Nat := 0
  bytesOut : Nat := 0
  malformed : Nat := 0
  /-- Packets of another source than the one that is received -/
  foreign : Nat := 0
  /-- Packets whose number jumped too far -/
  rejected : Nat := 0
  nacksSent : Nat := 0
  pending : Nat := 0
  reorder : ReorderCounts := {}
  /-- Reception figures, once a stream is received -/
  reception : Option Reception := none
deriving DecidableEq, Inhabited, Repr

namespace ReceiverStatistics

/-- Bits received per second of whole elapsed seconds; none before the first second. -/
def bitRate (s : ReceiverStatistics) (elapsed : Span) : Nat := s.bytesIn * 8 / elapsed.seconds

def line (s : ReceiverStatistics) (elapsed : Span) : String :=
  let lost := (s.reception.map (·.cumulativeLost)).getD 0
  let fraction := (s.reception.map (·.fractionLost.toNat)).getD 0
  let percent := Text.fixedPlaces 1 ⟨fraction * 100, 256⟩
  s!"[{Text.padRight 8 (Text.span elapsed)}] Packets: {s.packets} | In: {Text.bytes s.bytesIn}"
    ++ s!" | Out: {Text.bytes s.bytesOut} | Rate: {Text.bandwidth (s.bitRate elapsed)}"
    ++ s!" | Pending: {s.pending} | Lost: {lost} ({percent}%) | NACK: {s.nacksSent}"
    ++ s!" | Recovered: {s.reorder.recovered} | Skipped: {s.reorder.skipped}"
    ++ s!" | Dup: {s.reorder.duplicates}"

end ReceiverStatistics

end Playout
