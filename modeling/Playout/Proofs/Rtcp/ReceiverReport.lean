import Mathlib.Data.List.Basic
import Playout.Proofs.Rtcp.Header
import Playout.Receiver.Basic
import Playout.Rtcp.ReceiverReport

/-!
# Reports are read as they were written

A report that is read back has lost what 24 bits do not hold of its loss counts, and nothing else:
it is `clamped`. What can be read is a clamped report, written behind a first byte of version 2 that
counts its blocks, and with two bytes of length that nobody looks at:

    write_eq_toBytes   a report is written as a whole, or nothing of it
    ofBytes_eq_ok_iff  bytes are read if and only if they begin with a report so written

So writing and reading undo each other, in both directions (`report_codec`).
-/

namespace Playout

open Bytes Rtcp

/-! ## Loss counts -/

namespace Extender

theorem clampLost_clampLost (n : Int) : clampLost (clampLost n) = clampLost n := by
  unfold clampLost
  omega

end Extender

namespace ReportBlock

open Extender

/-- The sign is found again. -/
theorem lostOfBits_lostBits (n : Int) : lostOfBits (lostBits n) = clampLost n := by
  have hrange : -0x800000 ≤ clampLost n ∧ clampLost n ≤ 0x7FFFFF := by
    unfold clampLost
    omega
  unfold lostOfBits lostBits
  rw [Int.toNat_of_nonneg (Int.emod_nonneg _ (by omega))]
  calc (clampLost n % 0x1000000).bmod 0x1000000
      = (clampLost n).bmod 0x1000000 := Int.emod_bmod (clampLost n) 0x1000000
    _ = clampLost n := Int.bmod_eq_of_le (by omega) (by omega)

theorem lostBits_clampLost (n : Int) : lostBits (clampLost n) = lostBits n := by
  unfold lostBits
  rw [clampLost_clampLost]

theorem lostBits_lt (n : Int) : lostBits n < 256 ^ 3 := by
  have := Int.emod_lt_of_pos (clampLost n) (show (0 : Int) < 0x1000000 by decide)
  unfold lostBits
  omega

/-- What is read needs no more than 24 bits. -/
theorem clampLost_lostOfBits (n : Nat) : clampLost (lostOfBits n) = lostOfBits n := by
  have hle : -0x800000 ≤ lostOfBits n := Int.le_bmod (by omega)
  have hlt : lostOfBits n < 0x800000 := Int.bmod_lt (by omega)
  unfold clampLost
  omega

theorem lostBits_lostOfBits {n : Nat} (h : n < 256 ^ 3) : lostBits (lostOfBits n) = n := by
  have hmod : lostOfBits n % 0x1000000 = (n : Int) % 0x1000000 := Int.bmod_emod
  unfold lostBits
  rw [clampLost_lostOfBits, hmod]
  omega

/-! ## Blocks -/

/-- The block with a loss count that 24 bits hold. -/
def clamped (b : ReportBlock) : ReportBlock :=
  { b with cumulativeLost := clampLost b.cumulativeLost }

/-- A block is written with its loss count clamped. -/
theorem toBytes_clamped (b : ReportBlock) : b.clamped.toBytes = b.toBytes := by
  unfold toBytes clamped
  rw [lostBits_clampLost]

theorem clamped_clamped (b : ReportBlock) : b.clamped.clamped = b.clamped := by
  unfold clamped
  rw [clampLost_clampLost]

@[simp] theorem length_toBytes (b : ReportBlock) : b.toBytes.length = size := by
  simp [toBytes, word32, size]

theorem write_eq_toBytes {ε : Type} (b : ReportBlock) (buffer : List UInt8) :
    (b.write : Builder ε Unit).run buffer = .ok () (buffer ++ b.toBytes) := by
  simp only [write, Builder.run_put_bind, Builder.run_put, toBytes, List.append_assoc]

/-- A block is read if and only if it was written. -/
theorem reader_eq_some_iff {b : ReportBlock} {bs rest : List UInt8} :
    reader.run bs = some (b, rest) ↔ b.clamped = b ∧ bs = b.toBytes ++ rest := by
  unfold reader
  simp only [Reader.bind_eq_some_iff, Reader.word32_eq_some_iff, Reader.word8_eq_some_iff,
    Reader.number_eq_some_iff, Reader.pure_eq_some_iff]
  constructor
  · rintro ⟨ssrc, _, rfl, fraction, _, rfl, lost, _, ⟨hlost, rfl⟩, highest, _, rfl, jitter, _, rfl,
      lastReport, _, rfl, since, _, rfl, rfl, rfl⟩
    refine ⟨by rw [clamped, clampLost_lostOfBits], ?_⟩
    simp only [toBytes, lostBits_lostOfBits hlost, List.append_assoc, List.cons_append,
      List.nil_append]
  · intro ⟨hclamped, hbs⟩
    -- a count that 24 bits hold comes back from them
    have hlost : lostOfBits (lostBits b.cumulativeLost) = b.cumulativeLost :=
      (lostOfBits_lostBits _).trans (congrArg cumulativeLost hclamped)
    simp only [toBytes, List.append_assoc, List.cons_append, List.nil_append] at hbs
    refine ⟨_, _, hbs, _, _, rfl, _, _, ⟨lostBits_lt _, rfl⟩, _, _, rfl, _, _, rfl, _, _, rfl,
      _, _, rfl, ?_, rfl⟩
    rw [hlost]

/-- Blocks are read if and only if they were written. -/
theorem readMany_eq_some_iff {n : Nat} {blocks : List ReportBlock} {bs rest : List UInt8} :
    (readMany n).run bs = some (blocks, rest) ↔
      blocks.length = n ∧ blocks.map clamped = blocks ∧ bs = blocks.flatMap toBytes ++ rest := by
  induction n generalizing blocks bs rest with
  | zero =>
    unfold readMany
    rw [Reader.pure_eq_some_iff]
    constructor
    · rintro ⟨rfl, rfl⟩
      exact ⟨rfl, rfl, rfl⟩
    · intro ⟨hlength, hclamped, hbs⟩
      rw [List.eq_nil_of_length_eq_zero hlength] at hbs ⊢
      exact ⟨rfl, hbs⟩
  | succ n ih => -- one block, and then the others
    unfold readMany
    simp only [Reader.bind_eq_some_iff, Reader.pure_eq_some_iff, reader_eq_some_iff, ih]
    constructor
    · rintro ⟨b, _, ⟨hb, rfl⟩, blocks, _, ⟨rfl, hblocks, rfl⟩, rfl, rfl⟩
      rw [List.map_cons, hb, hblocks, List.flatMap_cons, List.append_assoc]
      exact ⟨rfl, rfl, rfl⟩
    · intro ⟨hlength, hclamped, hbs⟩
      obtain ⟨b, blocks, rfl⟩ := List.exists_cons_of_length_eq_add_one hlength
      obtain ⟨hb, hblocks⟩ := List.cons.inj hclamped
      rw [List.flatMap_cons, List.append_assoc] at hbs
      exact ⟨b, _, ⟨hb, hbs⟩, blocks, rest, ⟨Nat.succ.inj hlength, hblocks, rfl⟩, rfl, rfl⟩

theorem forM_write {ε : Type} (blocks : List ReportBlock) (buffer : List UInt8) :
    (blocks.forM write : Builder ε Unit).run buffer =
      .ok () (buffer ++ blocks.flatMap toBytes) := by
  induction blocks generalizing buffer with
  | nil =>
    rw [List.flatMap_nil, List.append_nil]
    rfl
  | cons b blocks ih =>
    rw [List.flatMap_cons, ← List.append_assoc, ← ih]
    exact Builder.run_bind (b.write_eq_toBytes buffer) _

end ReportBlock

/-! ## Reports -/

namespace ReceiverReport

/-- The report with loss counts that 24 bits hold. -/
def clamped (r : ReceiverReport) : ReceiverReport :=
  { r with blocks := r.blocks.map ReportBlock.clamped }

/-- What stands behind the length. -/
def body (r : ReceiverReport) : List UInt8 :=
  word32 r.senderSsrc ++ r.blocks.flatMap ReportBlock.toBytes

/-- The report behind some first byte, with some length. -/
def framed (first : UInt8) (length : UInt16) (r : ReceiverReport) : List UInt8 :=
  first :: packetType :: (word16 length ++ r.body)

theorem length_body (r : ReceiverReport) : r.body.length = 4 + 24 * r.blocks.length := by
  have hblocks : (r.blocks.flatMap ReportBlock.toBytes).length = 24 * r.blocks.length := by
    rw [List.length_flatMap, List.map_congr_left fun b _ => b.length_toBytes, List.map_const',
      List.sum_replicate_nat, ReportBlock.size, Nat.mul_comm]
  rw [body, List.length_append, word32, length_encode, hblocks]

theorem body_clamped (r : ReceiverReport) : r.clamped.body = r.body := by
  unfold body clamped
  rw [List.flatMap_map, List.flatMap_congr fun b _ => b.toBytes_clamped]

theorem clamped_clamped (r : ReceiverReport) : r.clamped.clamped = r.clamped := by
  have htwice : ReportBlock.clamped ∘ ReportBlock.clamped = ReportBlock.clamped :=
    funext ReportBlock.clamped_clamped
  unfold clamped
  rw [List.map_map, htwice]

/-- The packet as it is written. -/
def wire (r : ReceiverReport) : List UInt8 :=
  framed (leading r.blocks.length) (.ofNat (6 * r.blocks.length + 1)) r

/-- The length field of a report is right. -/
theorem claimedSize_wire {r : ReceiverReport} (h : r.blocks.length ≤ maxBlocks) :
    claimedSize r.wire = r.wire.length := by
  have hle : r.blocks.length ≤ 31 := h
  rw [wire, framed, claimedSize_header, UInt16.toNat_ofNat_of_lt' (Nat.lt_of_le_of_lt
    (Nat.add_le_add_right (Nat.mul_le_mul_left 6 hle) 1) (by decide))]
  simp only [List.length_cons, List.length_append, word16, length_encode, length_body]
  omega

theorem toBytes_eq_ok {r : ReceiverReport} (h : r.blocks.length ≤ maxBlocks) :
    r.toBytes = .ok r.wire := by
  have hwords : r.size / 4 - 1 = 6 * r.blocks.length + 1 := by
    unfold size headerSize ReportBlock.size
    omega
  -- with 31 blocks at most the length fits into its field
  have hfits : 6 * r.blocks.length + 1 < 2 ^ 16 := by
    have hle : r.blocks.length ≤ 31 := h
    omega
  unfold toBytes
  rw [if_neg (Nat.not_lt.mpr h), hwords, wire, framed, word16,
    UInt16.toNat_ofNat_of_lt' hfits, body]
  simp only [List.cons_append, List.nil_append, List.append_assoc]
  rfl

theorem write_eq_toBytes (r : ReceiverReport) (buffer : List UInt8) :
    r.write.run buffer =
      match r.toBytes with
      | .ok bytes => .ok () (buffer ++ bytes)
      | .error e => .error e buffer := by
  unfold write toBytes
  split
  · rfl
  · simp only [Builder.run_put_bind, ReportBlock.forM_write, List.append_assoc]
    rfl

/-- The fields behind the second byte are read if and only if they stand there. -/
theorem fields_eq_some_iff {count : Nat} {r : ReceiverReport} {bs rest : List UInt8} :
    (fields count).run bs = some (r, rest) ↔
      r.blocks.length = count ∧ r.clamped = r ∧
        ∃ length : UInt16, bs = word16 length ++ r.body ++ rest := by
  unfold fields
  simp only [Reader.bind_eq_some_iff, Reader.pure_eq_some_iff, Reader.word16_eq_some_iff,
    Reader.word32_eq_some_iff, ReportBlock.readMany_eq_some_iff]
  constructor
  · rintro ⟨length, _, rfl, ssrc, _, rfl, blocks, _, ⟨hlength, hclamped, rfl⟩, rfl, rfl⟩
    refine ⟨hlength, by rw [clamped, hclamped], length, ?_⟩
    rw [body, List.append_assoc, List.append_assoc]
  · intro ⟨hlength, hclamped, length, hbs⟩
    rw [body, List.append_assoc, List.append_assoc] at hbs
    exact ⟨length, _, hbs, _, _, rfl, _, _, ⟨hlength, congrArg blocks hclamped, rfl⟩, rfl, rfl⟩

/-- Bytes are read if and only if they begin with a report. -/
theorem ofBytes_eq_ok_iff {d : List UInt8} {r : ReceiverReport} :
    ofBytes d = .ok r ↔ r.clamped = r ∧ ∃ first length trailing,
      first.toNat / 64 = 2 ∧ first.toNat % 32 = r.blocks.length ∧
        d = framed first length r ++ trailing := by
  unfold ofBytes
  constructor
  · intro h
    split at h
    · cases h
    · split at h
      · next first kind rest _ => -- the checks of the reader, one after the other
        dsimp only at h
        split at h
        · cases h
        · next hheader =>
          obtain ⟨hversion, rfl⟩ := not_or.mp hheader |>.imp not_not.mp not_not.mp
          split at h
          · next hfields =>
            cases h
            obtain ⟨hcount, hclamped, length, rfl⟩ := fields_eq_some_iff.mp hfields
            exact ⟨hclamped, first, length, _, hversion, hcount.symm, rfl⟩
          · cases h
      · cases h
  · rintro ⟨hclamped, first, length, trailing, hversion, hcount, rfl⟩
    -- a report behind its header is long enough, and passes the same checks
    have hlong : ¬ (framed first length r ++ trailing).length < headerSize := by
      have hbody := r.length_body
      simp only [framed, headerSize, List.length_append, List.length_cons, word16, length_encode]
      omega
    have hfields : (fields (first.toNat % 32)).run (word16 length ++ r.body ++ trailing) =
        some (r, trailing) := fields_eq_some_iff.mpr ⟨hcount.symm, hclamped, length, rfl⟩
    rw [if_neg hlong, framed, List.cons_append, List.cons_append]
    dsimp only
    rw [if_neg (by simp [hversion]), hfields]
    rfl

theorem run_write {r : ReceiverReport} (h : r.blocks.length ≤ maxBlocks) (buffer : List UInt8) :
    r.write.run buffer = .ok () (buffer ++ r.wire) := by
  rw [write_eq_toBytes, toBytes_eq_ok h]

/-- A report that is written is read again, clamped. -/
theorem ofBytes_wire {r : ReceiverReport} (h : r.blocks.length ≤ maxBlocks)
    (trailing : List UInt8) : ofBytes (r.wire ++ trailing) = .ok r.clamped := by
  have hlt : r.blocks.length < 32 := Nat.lt_succ_of_le h
  have hlength : r.clamped.blocks.length = r.blocks.length := List.length_map _
  refine ofBytes_eq_ok_iff.mpr ⟨r.clamped_clamped, leading r.blocks.length,
    .ofNat (6 * r.blocks.length + 1), trailing, ?_, ?_, ?_⟩
  · rw [toNat_leading hlt]
    omega
  · rw [toNat_leading hlt, hlength]
    omega
  · rw [wire, framed, framed, body_clamped]

/-- The bytes that were read are written again, but for the padding bit and the length. -/
theorem wire_of_ofBytes {d : List UInt8} {r : ReceiverReport} (h : ofBytes d = .ok r) :
    ∃ (first : UInt8) (length : UInt16) (rest : List UInt8),
      d = first :: packetType :: (word16 length ++ rest) ∧
      r.blocks.length = first.toNat % 32 ∧ 4 + 24 * (first.toNat % 32) ≤ rest.length ∧
      r.wire = (first &&& 0xDF) :: packetType :: (word16 (.ofNat (6 * (first.toNat % 32) + 1)) ++
        rest.take (4 + 24 * (first.toNat % 32))) := by
  obtain ⟨-, first, length, trailing, hversion, hcount, rfl⟩ := ofBytes_eq_ok_iff.mp h
  have hbody : r.body.length = 4 + 24 * (first.toNat % 32) := by
    rw [length_body, hcount]
  refine ⟨first, length, r.body ++ trailing, ?_, hcount.symm, ?_, ?_⟩
  · rw [framed, List.cons_append, List.cons_append, List.append_assoc]
  · rw [List.length_append, hbody]
    exact Nat.le_add_right _ _
  · rw [List.take_left' hbody, wire, framed, ← hcount, leading_eq hversion]

/-- A receiver reports one block, and of losses no more than is sent. -/
theorem clamped_of_report {receiver receiver' : Receiver} {r : ReceiverReport}
    (h : receiver.report = (some r, receiver')) : r.blocks.length = 1 ∧ r.clamped = r := by
  unfold Receiver.report at h
  split at h
  · cases h
    refine ⟨rfl, ?_⟩
    unfold clamped
    rw [List.map_singleton, ReportBlock.clamped, ReportBlock.ofReception]
    dsimp only [Extender.report, Extender.peek]
    rw [Extender.clampLost_clampLost]
  · cases h

/-- **Writing and reading undo each other.** A report of at most 31 blocks is appended to any
buffer, and is read from there, whatever follows, with the loss counts that 24 bits hold; a longer
one is not written. Bytes that are read as a report are those that the report writes, but for the
padding bit of the first byte and the length. A report that a receiver makes is read as it is. -/
theorem report_codec :
    (∀ r : ReceiverReport, r.blocks.length ≤ maxBlocks → ∃ written,
      (∀ buffer, r.write.run buffer = .ok () (buffer ++ written)) ∧
      ∀ trailing, ofBytes (written ++ trailing) = .ok r.clamped) ∧
    (∀ (r : ReceiverReport) (buffer : List UInt8), maxBlocks < r.blocks.length →
      r.write.run buffer = .error (.tooManyBlocks r.blocks.length) buffer) ∧
    (∀ (d : List UInt8) (r : ReceiverReport), ofBytes d = .ok r →
      ∃ (first : UInt8) (length : UInt16) (rest : List UInt8),
        d = first :: packetType :: (word16 length ++ rest) ∧
        r.blocks.length = first.toNat % 32 ∧ 4 + 24 * (first.toNat % 32) ≤ rest.length ∧
        ∀ buffer, r.write.run buffer = .ok () (buffer ++ (first &&& 0xDF) :: packetType ::
          (word16 (.ofNat (6 * (first.toNat % 32) + 1)) ++
            rest.take (4 + 24 * (first.toNat % 32))))) ∧
    ∀ (receiver receiver' : Receiver) (r : ReceiverReport),
      receiver.report = (some r, receiver') → ∃ written,
        (∀ buffer, r.write.run buffer = .ok () (buffer ++ written)) ∧
        ∀ trailing, ofBytes (written ++ trailing) = .ok r := by
  refine ⟨fun r h => ⟨r.wire, run_write h, ofBytes_wire h⟩, ?_, ?_, ?_⟩
  · intro r buffer h
    rw [write_eq_toBytes, toBytes, if_pos h]
    rfl
  · intro d r h
    obtain ⟨first, length, rest, hd, hcount, hlong, hwire⟩ := wire_of_ofBytes h
    -- five bits count no more than 31 blocks
    have hle : r.blocks.length ≤ maxBlocks := by
      rw [hcount]
      exact Nat.le_of_lt_succ (Nat.mod_lt _ (by decide))
    refine ⟨first, length, rest, hd, hcount, hlong, fun buffer => ?_⟩
    rw [run_write hle, hwire]
  -- a receiver reports one block, with a loss that is clamped already
  · intro receiver receiver' r h
    obtain ⟨hone, hclamped⟩ := clamped_of_report h
    have hle : r.blocks.length ≤ maxBlocks := hone ▸ by decide
    refine ⟨r.wire, run_write hle, fun trailing => ?_⟩
    rw [ofBytes_wire hle, hclamped]

/-- More lost than 24 bits hold. -/
def overlost : ReceiverReport := ⟨9, [{ ssrc := 7, cumulativeLost := 0x900000 }]⟩

/-- One block too many. -/
def overfull : ReceiverReport := ⟨9, List.replicate 32 { ssrc := 7 }⟩

/-- A receiver of one packet. -/
def heardFive : Receiver :=
  { Receiver.new 50000 9 with mediaSsrc := some 7, extender := (({} : Extender).extend 5).2 }

theorem codec_of_each_kind :
    overlost.blocks.length ≤ maxBlocks ∧
    (∃ written, ofBytes (written ++ [1, 2]) =
      .ok ⟨9, [{ ssrc := 7, cumulativeLost := 0x7FFFFF }]⟩) ∧
    overfull.write.run [1] = .error (.tooManyBlocks 32) [1] ∧
    ofBytes [0xA0, 201, 0, 0, 0, 0, 0, 9, 255] = .ok ⟨9, []⟩ ∧
    (⟨9, []⟩ : ReceiverReport).write.run [] = .ok () [0x80, 201, 0, 1, 0, 0, 0, 9] ∧
    heardFive.report.1 = some ⟨9, [{ ssrc := 7, highest := ⟨5⟩ }]⟩ ∧
    ∃ written, ofBytes (written ++ [3]) = .ok ⟨9, [{ ssrc := 7, highest := ⟨5⟩ }]⟩ := by
  obtain ⟨hread, hrefuse, hwritten, hown⟩ := report_codec
  have hshort : overlost.blocks.length ≤ maxBlocks := by decide
  have hpadded : ofBytes [0xA0, 201, 0, 0, 0, 0, 0, 9, 255] = .ok ⟨9, []⟩ := rfl
  have hreport : heardFive.report =
      (some ⟨9, [{ ssrc := 7, highest := ⟨5⟩ }]⟩, heardFive.report.2) := by decide +kernel
  obtain ⟨written, -, hoverlost⟩ := hread overlost hshort
  obtain ⟨first, length, rest, hd, -, -, hempty⟩ := hwritten _ _ hpadded
  -- the bytes that were read tell the parts that `report_codec` names
  obtain rfl : 0xA0 = first := (List.cons.inj hd).1
  have hrest : [0, 0] ++ [0, 0, 0, 9, 255] = word16 length ++ rest :=
    (List.cons.inj (List.cons.inj hd).2).2
  obtain ⟨-, rfl⟩ := List.append_inj hrest (length_encode 2 length.toNat).symm
  obtain ⟨sent, -, hheard⟩ := hown heardFive _ _ hreport
  exact ⟨hshort, ⟨written, hoverlost [1, 2]⟩, hrefuse overfull [1] (by decide), hpadded, hempty [],
    congrArg Prod.fst hreport, sent, hheard [3]⟩

end ReceiverReport

end Playout
