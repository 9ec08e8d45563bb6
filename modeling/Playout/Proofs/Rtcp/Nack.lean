import Mathlib.Data.Nat.BitIndices
import Playout.Proofs.Rtcp.Header
import Playout.Rtcp.Nack

/-!
# Requests are read as they were written

A request comes back from its bytes, whatever follows them. What can be read is a request behind a
first byte of version 2 and format 1, with two bytes of length that nobody looks at
(`ofBytes_eq_ok_iff`). The numbers that a request asks for are as far behind the first as the bits
of the mask say, so their distances from it are a row that goes up (`map_distance`), and the request
can be told from the numbers alone (`window`).
-/

namespace Playout.Nack

open Bytes Rtcp

/-! ## The packet -/

/-- What stands behind the length. -/
def body (n : Nack) : List UInt8 :=
  word32 n.senderSsrc ++ (word32 n.mediaSsrc ++ (word16 n.pid ++ word16 n.blp))

theorem length_body (n : Nack) : n.body.length = 12 := by
  simp [body, word32, word16]

/-- The request behind some first byte, with some length. -/
def framed (first : UInt8) (length : UInt16) (n : Nack) : List UInt8 :=
  first :: packetType :: (word16 length ++ n.body)

theorem toBytes_eq (n : Nack) : n.toBytes = framed (leading format) 3 n := by
  simp only [toBytes, framed, body, List.cons_append, List.nil_append, List.append_assoc]
  rfl

/-- The fields behind the second byte are read if and only if they stand there. -/
theorem fields_eq_some_iff {n : Nack} {bs rest : List UInt8} :
    fields.run bs = some (n, rest) ↔ ∃ length : UInt16, bs = word16 length ++ (n.body ++ rest) := by
  unfold fields
  simp only [Reader.bind_eq_some_iff, Reader.word16_eq_some_iff, Reader.word32_eq_some_iff,
    Reader.pure_eq_some_iff]
  constructor
  · intro ⟨length, _, hlength, sender, _, hsender, media, _, hmedia, pid, _, hpid, blp, _, hblp,
      hn, hrest⟩
    subst hlength hsender hmedia hpid hblp hn hrest
    refine ⟨length, ?_⟩
    simp only [body, List.append_assoc]
  · intro ⟨length, hbs⟩
    simp only [body, List.append_assoc] at hbs
    exact ⟨length, _, hbs, _, _, rfl, _, _, rfl, _, _, rfl, _, _, rfl, rfl, rfl⟩

/-- Bytes are read if and only if they begin with a request. -/
theorem ofBytes_eq_ok_iff {d : List UInt8} {n : Nack} :
    ofBytes d = .ok n ↔ ∃ first length trailing,
      first.toNat / 64 = 2 ∧ first.toNat % 32 = format ∧ d = framed first length n ++ trailing := by
  constructor
  · intro h
    unfold ofBytes at h
    split at h
    · cases h
    · split at h
      · next first kind rest _ => -- the checks of the reader, one after the other
        split at h
        · next hheader =>
          obtain ⟨hversion, hformat, rfl⟩ := hheader
          split at h
          · next trailing hfields =>
            cases h
            obtain ⟨length, rfl⟩ := fields_eq_some_iff.mp hfields
            refine ⟨first, length, trailing, hversion, hformat, ?_⟩
            rw [framed, List.cons_append, List.cons_append, List.append_assoc]
          · cases h
        · cases h
      · cases h
  · intro ⟨first, length, trailing, hversion, hformat, hd⟩
    -- a request behind its header is long enough, and passes the same checks
    have hlong : ¬ d.length < size := by
      have hbody := n.length_body
      rw [hd]
      simp only [framed, size, List.length_append, List.length_cons, word16, length_encode]
      omega
    have hfields : fields.run (word16 length ++ (n.body ++ trailing)) = some (n, trailing) :=
      fields_eq_some_iff.mpr ⟨length, rfl⟩
    unfold ofBytes
    rw [if_neg hlong, hd, framed, List.cons_append, List.cons_append, List.append_assoc]
    dsimp only
    rw [if_pos ⟨hversion, hformat, rfl⟩, hfields]
    rfl

theorem ofBytes_toBytes (n : Nack) (trailing : List UInt8) :
    ofBytes (n.toBytes ++ trailing) = .ok n := by
  have hone : (leading format).toNat = 129 := toNat_leading (by decide)
  apply ofBytes_eq_ok_iff.mpr
  refine ⟨leading format, 3, trailing, ?_, ?_, ?_⟩
  · rw [hone]
  · rw [hone]
    rfl
  · rw [toBytes_eq]

/-- The bytes that were read are written again, but for the padding bit and the length. -/
theorem toBytes_of_ofBytes {d : List UInt8} {n : Nack} (h : ofBytes d = .ok n) :
    ∃ (first : UInt8) (length : UInt16) (rest : List UInt8),
      d = first :: packetType :: (word16 length ++ rest) ∧ 12 ≤ rest.length ∧
      n.toBytes = (first &&& 0xDF) :: packetType :: (word16 3 ++ rest.take 12) := by
  obtain ⟨first, length, trailing, hversion, hformat, rfl⟩ := ofBytes_eq_ok_iff.mp h
  refine ⟨first, length, n.body ++ trailing, ?_, ?_, ?_⟩
  · rw [framed, List.cons_append, List.cons_append, List.append_assoc]
  · rw [List.length_append, length_body]
    exact Nat.le_add_right _ _
  · rw [List.take_left' n.length_body, toBytes_eq, framed, ← hformat, leading_eq hversion]

/-! ## The numbers that are asked for -/

/-- How far `s` is behind `pid`, on the circle of wire numbers. -/
def distance (pid s : UInt16) : Nat := (s - pid).toNat

theorem distance_self (pid : UInt16) : distance pid pid = 0 := by
  rw [distance, UInt16.sub_self]
  rfl

/-- A mask of 16 bits has no bit behind them. -/
theorem lt_of_mem_bits {n : Nack} {i : Nat} (h : i ∈ n.blp.toNat.bitIndices) : i < 16 := by
  have hle : 2 ^ i ≤ n.blp.toNat := Nat.two_pow_le_of_mem_bitIndices h
  apply (Nat.pow_lt_pow_iff_right (show 1 < 2 by decide)).mp
  exact Nat.lt_of_le_of_lt hle n.blp.toNat_lt

theorem distance_of_mem_bits {n : Nack} {i : Nat} (h : i ∈ n.blp.toNat.bitIndices) :
    distance n.pid (n.pid + .ofNat (i + 1)) = i + 1 := by
  have hi : i < 16 := lt_of_mem_bits h
  have hpid : n.pid.toNat < 65536 := n.pid.toNat_lt
  rw [distance, UInt16.toNat_sub, UInt16.toNat_add, UInt16.toNat_ofNat']
  omega

theorem lostSequences_eq (n : Nack) :
    n.lostSequences =
      n.pid :: n.blp.toNat.bitIndices.map fun i => n.pid + .ofNat (i + 1) := by
  have hbits : (List.range 16).filter n.blp.toNat.testBit = n.blp.toNat.bitIndices := by
    apply ((List.sortedLT_range 16).pairwise.filter _).eq_of_mem_iff
      Nat.bitIndices_sorted.pairwise
    intro i
    rw [List.mem_filter, List.mem_range, ← Nat.mem_bitIndices]
    exact and_iff_right_of_imp lt_of_mem_bits
  rw [lostSequences, hbits]

/-- The numbers are behind the first by one place more than the bits say. -/
theorem map_distance (n : Nack) :
    n.lostSequences.map (distance n.pid) = 0 :: n.blp.toNat.bitIndices.map (· + 1) := by
  rw [lostSequences_eq, List.map_cons, List.map_map, distance_self]
  congr 1
  exact List.map_congr_left fun i hi => distance_of_mem_bits hi

/-- The numbers go up from the first, on the circle. -/
theorem lostSequences_pairwise (n : Nack) :
    n.lostSequences.Pairwise fun a b => distance n.pid a < distance n.pid b := by
  have hbits : n.blp.toNat.bitIndices.Pairwise (· < ·) := Nat.bitIndices_sorted.pairwise
  apply List.pairwise_map.mp
  rw [map_distance]
  apply List.pairwise_cons.mpr
  refine ⟨?_, List.pairwise_map.mpr (hbits.imp Nat.succ_lt_succ)⟩
  intro d hd
  obtain ⟨i, -, rfl⟩ := List.mem_map.mp hd
  exact Nat.succ_pos i

theorem mem_lostSequences {n : Nack} {s : UInt16} :
    s ∈ n.lostSequences ↔ s = n.pid ∨
      ∃ i < 16, n.blp.toNat.testBit i ∧ s.toNat = (n.pid.toNat + i + 1) % 65536 := by
  -- places are counted from the one behind the first packet, modulo 2^16
  have hplace : ∀ i, n.pid + .ofNat (i + 1) = s ↔
      s.toNat = (n.pid.toNat + i + 1) % 65536 := by
    intro i
    rw [← UInt16.toNat_inj, UInt16.toNat_add, UInt16.toNat_ofNat', eq_comm]
    omega
  rw [lostSequences, List.mem_cons, List.mem_map]
  apply or_congr_right
  apply exists_congr
  intro i
  rw [List.mem_filter, List.mem_range, and_assoc, hplace]

/-- The first of some numbers, and the mask of those that are behind it. -/
def window : List UInt16 → Option (UInt16 × UInt16)
  | [] => none
  | pid :: others => some (pid, .ofNat (others.map fun s => 2 ^ (distance pid s - 1)).sum)

/-- The request can be told from the numbers. -/
theorem window_lostSequences (n : Nack) : window n.lostSequences = some (n.pid, n.blp) := by
  have hpowers : ((n.blp.toNat.bitIndices.map fun i => n.pid + .ofNat (i + 1)).map
      fun s => 2 ^ (distance n.pid s - 1)) = n.blp.toNat.bitIndices.map (2 ^ ·) := by
    rw [List.map_map]
    apply List.map_congr_left
    intro i hi
    rw [Function.comp_apply, distance_of_mem_bits hi, Nat.add_sub_cancel]
  rw [lostSequences_eq, window, hpowers, Nat.sum_map_two_pow_bitIndices, UInt16.ofNat_toNat]

/-- **Writing and reading undo each other, and the numbers say the same as the fields.** A request
is read from its bytes, whatever follows them. Bytes that are read as a request are those that it
writes, but for the padding bit of the first byte and the length. The numbers that it asks for begin
with the first and go away from it, so none is there twice; they are the first and one for each bit
of the mask, and the first and the mask can be found from them. -/
theorem nack_codec :
    (∀ (n : Nack) (trailing : List UInt8), ofBytes (n.toBytes ++ trailing) = .ok n) ∧
    (∀ (d : List UInt8) (n : Nack), ofBytes d = .ok n →
      ∃ (first : UInt8) (length : UInt16) (rest : List UInt8),
        d = first :: packetType :: (word16 length ++ rest) ∧ 12 ≤ rest.length ∧
        n.toBytes = (first &&& 0xDF) :: packetType :: (word16 3 ++ rest.take 12)) ∧
    ∀ n : Nack,
      n.lostSequences.Nodup ∧ n.lostSequences.head? = some n.pid ∧
      (n.lostSequences.Pairwise fun a b => distance n.pid a < distance n.pid b) ∧
      (∀ s, s ∈ n.lostSequences ↔ s = n.pid ∨
        ∃ i < 16, n.blp.toNat.testBit i ∧ s.toNat = (n.pid.toNat + i + 1) % 65536) ∧
      window n.lostSequences = some (n.pid, n.blp) := by
  refine ⟨ofBytes_toBytes, fun _ _ => toBytes_of_ofBytes, fun n => ?_⟩
  have hapart : n.lostSequences.Nodup := by
    apply n.lostSequences_pairwise.imp
    intro a b hlt heq
    exact absurd (congrArg (distance n.pid) heq) (Nat.ne_of_lt hlt)
  exact ⟨hapart, rfl, n.lostSequences_pairwise, fun _ => mem_lostSequences,
    n.window_lostSequences⟩

/-- A request with the padding bit and a wrong length, whose numbers wrap. -/
def paddedRequest : List UInt8 :=
  [0xA1, 205, 9, 9, 0, 0, 0, 1, 0, 0, 0, 2, 0xFF, 0xFE, 0, 5, 7]

theorem codec_of_paddedRequest :
    ofBytes paddedRequest = .ok ⟨1, 2, 65534, 5⟩ ∧
    (⟨1, 2, 65534, 5⟩ : Nack).toBytes =
      [0x81, 205, 0, 3, 0, 0, 0, 1, 0, 0, 0, 2, 0xFF, 0xFE, 0, 5] ∧
    window [65534, 65535, 1] = some (65534, 5) := by
  obtain ⟨-, hwritten, hnumbers⟩ := nack_codec
  have hread : ofBytes paddedRequest = .ok ⟨1, 2, 65534, 5⟩ := rfl
  obtain ⟨first, length, rest, hd, -, hbytes⟩ := hwritten _ _ hread
  obtain rfl : 0xA1 = first := (List.cons.inj hd).1
  have hrest : [9, 9] ++ [0, 0, 0, 1, 0, 0, 0, 2, 0xFF, 0xFE, 0, 5, 7] = word16 length ++ rest :=
    (List.cons.inj (List.cons.inj hd).2).2
  obtain ⟨-, rfl⟩ := List.append_inj hrest (length_encode 2 length.toNat).symm
  obtain ⟨-, -, -, -, hwindow⟩ := hnumbers ⟨1, 2, 65534, 5⟩
  exact ⟨hread, hbytes, hwindow⟩

end Playout.Nack
