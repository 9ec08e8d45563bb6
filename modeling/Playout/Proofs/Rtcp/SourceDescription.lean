import Playout.Proofs.Rtcp.ReceiverReport

/-!
# Descriptions are found as they were written

A description is written with an empty length, which is put right when the end is known, so whatever
is in the buffer before it stays (`run_write`). Its reader takes an item by its kind, its length and
its text, until a kind is zero; the texts may hold any bytes, zeros as well, since their lengths
stand before them (`readItems_item`). Behind a report it is the second of two packets
(`compound_layout`).
-/

namespace Playout.SourceDescription

open Bytes Rtcp

/-! ## Writing -/

/-- The two items of a description. -/
def items (cname tool : List UInt8) : List UInt8 := item cnameKind cname ++ item toolKind tool

theorem length_item (kind : UInt8) (text : List UInt8) :
    (item kind text).length = 2 + min 255 text.length := by
  simp only [item, maxText, List.length_cons, List.length_take]
  omega

/-- Two texts of 255 bytes do not come near what the length field holds. -/
theorem words_lt (cname tool : List UInt8) : (items cname tool).length / 4 + 2 < 2 ^ 16 := by
  simp only [items, List.length_append, length_item]
  omega

theorem run_writeItem_bind {ε : Type} (kind : UInt8) (text buffer : List UInt8)
    (next : Unit → Builder ε Unit) :
    (writeItem kind text >>= next).run buffer = (next ()).run (buffer ++ item kind text) := by
  have hitem : (writeItem kind text : Builder ε Unit).run buffer =
      .ok () (buffer ++ item kind text) := by
    simp only [writeItem, Builder.run_put_bind, Builder.run_put, item, List.append_assoc,
      List.cons_append, List.nil_append]
  exact Builder.run_bind hitem next

/-- Only the fill is added, and it is counted from `start`. -/
theorem fillWord_eq (start : Nat) (buffer : List UInt8) :
    fillWord start buffer =
      buffer ++ List.replicate ((4 - (buffer.length - start) % 4) % 4) 0 := by
  fun_induction fillWord start buffer with
  | case1 buffer hwhole => simp [hwhole]
  | case2 buffer hpart ih =>
    have hcount : (4 - (buffer.length - start) % 4) % 4 =
        (4 - (buffer.length + 1 - start) % 4) % 4 + 1 := by omega
    rw [ih, List.length_append, List.length_singleton, hcount, List.replicate_succ,
      List.append_assoc, List.singleton_append]

/-- One zero ends the items, and the fill makes up the rest of the ending. -/
theorem fillWord_ending (buffer front items : List UInt8) (h : front.length % 4 = 0) :
    fillWord buffer.length (buffer ++ (front ++ (items ++ [0]))) =
      buffer ++ (front ++ (items ++ ending items.length)) := by
  have hcount : (4 - (front.length + (items.length + 1)) % 4) % 4 + 1 = 4 - items.length % 4 := by
    omega
  rw [fillWord_eq, ending, ← hcount, List.replicate_succ]
  simp only [List.length_append, List.length_singleton, Nat.add_sub_cancel_left,
    List.append_assoc, List.singleton_append]

theorem chunk_eq (ssrc : UInt32) (cname tool : List UInt8) :
    chunk ssrc cname tool =
      word32 ssrc ++ (items cname tool ++ ending (items cname tool).length) := by
  simp only [chunk, items, List.append_assoc]

theorem length_chunk (ssrc : UInt32) (cname tool : List UInt8) :
    (chunk ssrc cname tool).length = 4 * ((items cname tool).length / 4 + 2) := by
  simp only [chunk_eq, ending, List.length_append, List.length_replicate, word32, length_encode]
  omega

/-- A description is appended to whatever the buffer holds. -/
theorem run_write {ε : Type} (ssrc : UInt32) (cname tool buffer : List UInt8) :
    (write ssrc cname tool : Builder ε Unit).run buffer =
      .ok () (buffer ++ toBytes ssrc cname tool) := by
  have hlength : (word16 0).length = (encode 2 ((chunk ssrc cname tool).length / 4)).length := by
    rw [word16, length_encode, length_encode]
  -- the packet before its length is put right
  have hfilled : fillWord buffer.length (buffer ++ [0x81] ++ [packetType] ++ word16 0 ++
        word32 ssrc ++ item cnameKind cname ++ item toolKind tool ++ [0]) =
      (buffer ++ [0x81, packetType]) ++ (word16 0 ++ chunk ssrc cname tool) := by
    have := fillWord_ending buffer ([0x81, packetType] ++ word16 0 ++ word32 ssrc)
      (items cname tool) (by simp [word16, word32])
    simpa only [chunk_eq, items, List.append_assoc, List.cons_append, List.nil_append] using this
  have hwords : ((buffer ++ [0x81, packetType]) ++ (word16 0 ++ chunk ssrc cname tool)).length -
      buffer.length = (chunk ssrc cname tool).length + 4 := by
    simp only [List.length_append, List.length_cons, List.length_nil, word16, length_encode]
    omega
  have hstart : buffer.length + 2 = (buffer ++ [0x81, packetType]).length := by
    rw [List.length_append]
    rfl
  have hcount : ((chunk ssrc cname tool).length + 4) / 4 - 1 =
      (chunk ssrc cname tool).length / 4 := by omega
  simp only [write, Builder.run_get_bind, Builder.run_put_bind, run_writeItem_bind,
    Builder.run_modify_bind, hfilled, hwords, hcount, hstart]
  rw [Builder.run_overwrite _ _ hlength, toBytes]
  simp only [List.append_assoc]

/-! ## Reading -/

/-- A text, and what it is. -/
structure Item where
  kind : UInt8
  text : List UInt8
deriving DecidableEq, Inhabited, Repr

def readItem : Reader Item := do
  let kind ← Reader.word8
  let length ← Reader.word8
  let text ← Reader.bytes length.toNat
  return { kind, text }

theorem readItem_eq_some_iff {i : Item} {bs rest : List UInt8} :
    readItem.run bs = some (i, rest) ↔
      ∃ length : UInt8, i.text.length = length.toNat ∧
        bs = i.kind :: length :: (i.text ++ rest) := by
  unfold readItem
  simp only [Reader.bind_eq_some_iff, Reader.word8_eq_some_iff, Reader.bytes_eq_some_iff,
    Reader.pure_eq_some_iff]
  constructor
  · intro ⟨kind, _, hkind, length, _, hlength, text, _, ⟨htext, hbs⟩, hi, hrest⟩
    subst hkind hlength hbs hi hrest
    exact ⟨length, htext, rfl⟩
  · intro ⟨length, htext, hbs⟩
    exact ⟨_, _, hbs, _, _, rfl, _, _, ⟨htext, rfl⟩, rfl, rfl⟩

theorem length_lt_of_readItem {i : Item} {bs rest : List UInt8}
    (h : readItem.run bs = some (i, rest)) : rest.length < bs.length := by
  obtain ⟨length, -, hbs⟩ := readItem_eq_some_iff.mp h
  rw [hbs]
  simp only [List.length_cons, List.length_append]
  omega

/-- Items, up to a kind that is zero. -/
def readItems (bs : List UInt8) : Option (List Item × List UInt8) :=
  if bs.head? = some 0 then some ([], bs)
  else match _ : readItem.run bs with
  | some (i, rest) => (readItems rest).map fun (items, ending) => (i :: items, ending)
  | none => none
termination_by bs.length
decreasing_by exact length_lt_of_readItem ‹_›

/-- What a packet says of a source. -/
structure Description where
  version : Nat
  /-- How many sources are described -/
  count : Nat
  packetType : UInt8
  ssrc : UInt32
  items : List Item
  /-- What stands behind the items -/
  ending : List UInt8
deriving DecidableEq, Inhabited, Repr

def reader : Reader Description := do
  let first ← Reader.word8
  let packetType ← Reader.word8
  let _ ← Reader.word16
  let ssrc ← Reader.word32
  let items ← readItems
  let ending ← Reader.rest
  return { version := first.toNat / 64, count := first.toNat % 32, packetType, ssrc, items, ending }

/-- An item is read as it was written, whatever is in its text. -/
theorem readItems_item {kind : UInt8} (h : kind ≠ 0) (text rest : List UInt8) :
    readItems (item kind text ++ rest) =
      (readItems rest).map fun (items, ending) => (⟨kind, text.take maxText⟩ :: items, ending) := by
  have hkind : (item kind text ++ rest).head? ≠ some 0 := fun hzero => h (Option.some.inj hzero)
  have hitem : readItem.run (item kind text ++ rest) = some (⟨kind, text.take maxText⟩, rest) := by
    -- a text that is cut to 255 bytes has its length in one byte
    have hlength : (text.take maxText).length < 256 :=
      Nat.lt_succ_of_le (List.length_take_le maxText text)
    apply readItem_eq_some_iff.mpr
    exact ⟨.ofNat (text.take maxText).length, (UInt8.toNat_ofNat_of_lt' hlength).symm, rfl⟩
  rw [readItems, if_neg hkind]
  split
  · next i rest' hread =>
    cases hitem.symm.trans hread
    rfl
  · next hread =>
    cases hitem.symm.trans hread

theorem readItems_ending (size : Nat) : readItems (ending size) = some ([], ending size) := by
  have hsome : 4 - size % 4 = 3 - size % 4 + 1 := by omega
  rw [readItems, if_pos]
  rw [ending, hsome, List.replicate_succ]
  rfl

/-- Both items are read, and then the ending is reached. -/
theorem readItems_items (cname tool : List UInt8) (size : Nat) :
    readItems (items cname tool ++ ending size) =
      some ([⟨cnameKind, cname.take maxText⟩, ⟨toolKind, tool.take maxText⟩], ending size) := by
  rw [items, List.append_assoc, readItems_item (by decide), readItems_item (by decide),
    readItems_ending]
  rfl

theorem toBytes_eq (ssrc : UInt32) (cname tool : List UInt8) :
    toBytes ssrc cname tool = leading 1 :: packetType ::
      (word16 (.ofNat ((items cname tool).length / 4 + 2)) ++ chunk ssrc cname tool) := by
  have hwords : (chunk ssrc cname tool).length / 4 = (items cname tool).length / 4 + 2 := by
    rw [length_chunk, Nat.mul_div_cancel_left _ (by decide)]
  rw [toBytes, hwords, word16, UInt16.toNat_ofNat_of_lt' (words_lt cname tool)]
  rfl

theorem claimedSize_toBytes (ssrc : UInt32) (cname tool : List UInt8) :
    claimedSize (toBytes ssrc cname tool) = (toBytes ssrc cname tool).length := by
  rw [toBytes_eq, claimedSize_header, UInt16.toNat_ofNat_of_lt' (words_lt cname tool)]
  simp only [List.length_cons, List.length_append, word16, length_encode, length_chunk]
  omega

/-- The reader finds the texts in `packet` as far as they fit, and then one to four zeros up to the
end of a word. -/
def Describes (packet : List UInt8) (ssrc : UInt32) (cname tool : List UInt8) : Prop :=
  packet.length % 4 = 0 ∧ ∃ fill, 1 ≤ fill ∧ fill ≤ 4 ∧
    reader.run packet = some ({
      version := 2, count := 1, packetType := 202, ssrc
      items := [⟨1, cname.take 255⟩, ⟨6, tool.take 255⟩]
      ending := List.replicate fill 0 }, [])

/-- So the reader finds the texts again. -/
theorem toBytes_describes (ssrc : UInt32) (cname tool : List UInt8) :
    Describes (toBytes ssrc cname tool) ssrc cname tool := by
  constructor
  · rw [← claimedSize_toBytes]
    exact Nat.mul_mod_right 4 _
  -- the zeros at the end fill the last word, and there is one at least
  · refine ⟨4 - (items cname tool).length % 4, by omega, by omega, ?_⟩
    unfold reader
    simp only [Reader.bind_eq_some_iff, Reader.word8_eq_some_iff, Reader.word16_eq_some_iff,
      Reader.word32_eq_some_iff, Reader.rest_eq_some_iff, Reader.pure_eq_some_iff, toBytes_eq,
      chunk_eq]
    exact ⟨_, _, rfl, _, _, rfl, _, _, rfl, _, _, rfl, _, _, readItems_items cname tool _,
      _, _, ⟨rfl, rfl⟩, rfl, rfl⟩

/-! ## Two packets -/

theorem compound_eq_ok {r : ReceiverReport} (h : r.blocks.length ≤ ReceiverReport.maxBlocks)
    (cname tool : List UInt8) :
    r.compound cname tool = .ok (r.wire ++ toBytes r.senderSsrc cname tool) := by
  have hwritten : (r.writeCompound cname tool).run [] =
      .ok () (r.wire ++ toBytes r.senderSsrc cname tool) := by
    rw [ReceiverReport.writeCompound, Builder.run_bind (ReceiverReport.run_write h []), run_write]
    rfl
  rw [ReceiverReport.compound, hwritten]
  rfl

/-- A report and a description are two packets. -/
theorem packets_compound {r : ReceiverReport} (h : r.blocks.length ≤ ReceiverReport.maxBlocks)
    (cname tool : List UInt8) :
    packets (r.wire ++ toBytes r.senderSsrc cname tool) =
      some [r.wire, toBytes r.senderSsrc cname tool] := by
  have hlast : packets (toBytes r.senderSsrc cname tool) =
      some [toBytes r.senderSsrc cname tool] := by
    have := packets_append (claimedSize_toBytes r.senderSsrc cname tool) []
    rw [List.append_nil, packets_nil] at this
    exact this
  rw [packets_append (ReceiverReport.claimedSize_wire h), hlast]
  rfl

/-- **A report and the description of its sender.** With at most 31 blocks and any texts, the two
are sent as one datagram, which its length fields part into the report and the description and
nothing else, and the texts are found in the description up to 255 bytes each. A description that is
written at the end of a buffer leaves what is there as it is, and does not depend on it. -/
theorem compound_layout :
    (∀ (r : ReceiverReport) (cname tool : List UInt8),
      r.blocks.length ≤ ReceiverReport.maxBlocks → ∃ datagram report description,
        r.compound cname tool = .ok datagram ∧
        packets datagram = some [report, description] ∧
        r.write.run [] = .ok () report ∧ Describes description r.senderSsrc cname tool) ∧
    ∀ (ssrc : UInt32) (cname tool : List UInt8), ∃ packet, Describes packet ssrc cname tool ∧
      ∀ (ε : Type) (buffer : List UInt8),
        (write ssrc cname tool : Builder ε Unit).run buffer = .ok () (buffer ++ packet) := by
  constructor
  · intro r cname tool h
    refine ⟨_, r.wire, toBytes r.senderSsrc cname tool, compound_eq_ok h cname tool,
      packets_compound h cname tool, ?_, toBytes_describes r.senderSsrc cname tool⟩
    exact ReceiverReport.run_write h []
  · intro ssrc cname tool
    exact ⟨toBytes ssrc cname tool, toBytes_describes ssrc cname tool,
      fun ε buffer => run_write ssrc cname tool buffer⟩

/-- A name that is too long and looks like the end of the items, and no tool. -/
theorem zeros_described : ([] : List ReportBlock).length ≤ ReceiverReport.maxBlocks ∧
    ∃ datagram report description,
      (⟨9, []⟩ : ReceiverReport).compound (List.replicate 300 0) [] = .ok datagram ∧
      packets datagram = some [report, description] ∧
      (⟨9, []⟩ : ReceiverReport).write.run [] = .ok () report ∧
      Describes description 9 (List.replicate 300 0) [] := by
  have hnone : ([] : List ReportBlock).length ≤ ReceiverReport.maxBlocks := Nat.zero_le _
  exact ⟨hnone, compound_layout.1 ⟨9, []⟩ (List.replicate 300 0) [] hnone⟩

end Playout.SourceDescription
