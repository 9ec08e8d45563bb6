import Mathlib.Data.List.Basic
import Playout.Proofs.Bytes.BigEndian

/-!
# What feedback packets have in common

The first byte of a packet holds the version, which is 2, a padding bit, and five bits for a count
or a format. Bytes 2 and 3 are its length, so the packets of a datagram can be told apart without a
look at what they say (`packets`).

    leading_eq      : first.toNat / 64 = 2 → leading (first.toNat % 32) = first &&& 0xDF
    packets_append  : claimedSize p = p.length → packets (p ++ rest) = (packets rest).map (p :: ·)
-/

namespace Playout.Rtcp

open Bytes

/-! ## The first byte -/

/-- The first byte of a packet with `count` parts, or of format `count`. -/
def leading (count : Nat) : UInt8 := 0x80 + UInt8.ofNat count

theorem toNat_leading {count : Nat} (h : count < 32) : (leading count).toNat = 128 + count := by
  rw [leading, UInt8.toNat_add, UInt8.toNat_ofNat_of_lt' (show count < 256 by omega)]
  exact Nat.mod_eq_of_lt (show 128 + count < 256 by omega)

/-- Every first byte of version 2 is written so, but for the padding bit. -/
theorem leading_eq {first : UInt8} (h : first.toNat / 64 = 2) :
    leading (first.toNat % 32) = first &&& 0xDF := by
  have hbytes : ∀ n < 256, n / 64 = 2 → 128 + n % 32 = n &&& 0xDF := by decide +kernel
  rw [← UInt8.toNat_inj, toNat_leading (Nat.mod_lt _ (by decide)), UInt8.toNat_and]
  exact hbytes first.toNat first.toNat_lt h

/-! ## The packets of a datagram -/

/-- How many bytes the packet in front has by its length field, which is in words less one. -/
def claimedSize (datagram : List UInt8) : Nat := 4 * (decode ((datagram.drop 2).take 2) + 1)

/-- A datagram, cut where the length fields say. -/
def packets (datagram : List UInt8) : Option (List (List UInt8)) :=
  if datagram = [] then some []
  else if claimedSize datagram ≤ datagram.length then
    (packets (datagram.drop (claimedSize datagram))).map
      (datagram.take (claimedSize datagram) :: ·)
  else none
termination_by datagram.length
decreasing_by
  have hsize : 0 < claimedSize datagram := Nat.mul_pos (by decide) (Nat.succ_pos _)
  rw [List.length_drop]
  omega

theorem packets_nil : packets [] = some [] := by
  rw [packets, if_pos rfl]

theorem claimedSize_header (first kind : UInt8) (length : UInt16) (rest : List UInt8) :
    claimedSize (first :: kind :: (word16 length ++ rest)) = 4 * (length.toNat + 1) := by
  have hfield : (word16 length ++ rest).take 2 = word16 length :=
    List.take_left' (length_encode 2 length.toNat)
  have hlt : length.toNat < 256 ^ 2 := length.toNat_lt
  show 4 * (decode ((word16 length ++ rest).take 2) + 1) = _
  rw [hfield, word16, decode_encode, Nat.mod_eq_of_lt hlt]

/-- The length field of the packet in front counts. -/
theorem claimedSize_append {packet : List UInt8} (h : 4 ≤ packet.length) (rest : List UInt8) :
    claimedSize (packet ++ rest) = claimedSize packet := by
  unfold claimedSize
  rw [List.drop_append_of_le_length (by omega),
    List.take_append_of_le_length (by rw [List.length_drop]; omega)]

/-- A packet with the right length is cut off as a whole. -/
theorem packets_append {packet : List UInt8} (h : claimedSize packet = packet.length)
    (rest : List UInt8) : packets (packet ++ rest) = (packets rest).map (packet :: ·) := by
  have hlong : 4 ≤ packet.length := by
    rw [← h]
    exact Nat.le_mul_of_pos_right 4 (Nat.succ_pos _)
  have hsize : claimedSize (packet ++ rest) = packet.length :=
    (claimedSize_append hlong rest).trans h
  have hsome : packet ++ rest ≠ [] := by
    apply List.append_ne_nil_of_left_ne_nil
    exact List.ne_nil_of_length_pos (by omega)
  rw [packets, if_neg hsome, hsize, if_pos (by simp), List.drop_left, List.take_left]

end Playout.Rtcp
