import Playout.Proofs.Rtp.Frame

/-!
# Reading by index

`parseAt` reads a datagram in place: every byte by its index, every row of bytes between two
offsets, and every difference of offsets is computed. Each of these can be `outOfBounds`, and none
ever is:

    parseAt_eq : parseAt d = (parse d).mapError .refused

The offsets that `parseAt` computes are the lengths of what `parse` has kept so far.
-/

namespace Playout

/-- Why a reading breaks off. -/
inductive ReadFault where
  | refused (e : RtpError)
  | outOfBounds

namespace ReadFault

def byteAt (d : List UInt8) (i : Nat) : Except ReadFault UInt8 :=
  if h : i < d.length then return d[i] else throw outOfBounds

/-- The bytes from one offset up to another. -/
def slice (d : List UInt8) (start stop : Nat) : Except ReadFault (List UInt8) :=
  if start ≤ stop ∧ stop ≤ d.length then return (d.take stop).drop start else throw outOfBounds

def minus (n k : Nat) : Except ReadFault Nat :=
  if k ≤ n then return n - k else throw outOfBounds

theorem byteAt_eq {d : List UInt8} {i : Nat} (h : i < d.length) : byteAt d i = pure d[i] :=
  dif_pos h

theorem slice_eq {d : List UInt8} {start stop : Nat} (h : start ≤ stop) (hstop : stop ≤ d.length) :
    slice d start stop = pure ((d.take stop).drop start) :=
  if_pos ⟨h, hstop⟩

theorem minus_eq {n k : Nat} (h : k ≤ n) : minus n k = pure (n - k) :=
  if_pos h

end ReadFault

namespace RtpPacket

open Bytes ReadFault

/-- Where the payload stops. -/
def stopAt (first : UInt8) (d : List UInt8) : Except ReadFault Nat :=
  if hasPadding first then do
    let last ← byteAt d (← minus d.length 1)
    if d.length < last.toNat + headerSize then
      throw (.refused (.badPadding last.toNat d.length))
    minus d.length last.toNat
  else return d.length

/-- Where the payload starts. -/
def startAt (first : UInt8) (d : List UInt8) (stop : Nat) : Except ReadFault Nat := do
  let start := headerSize + 4 * csrcCount first
  if stop < start then throw (.refused (.truncatedCsrc (csrcCount first)))
  if hasExtension first then
    if stop < start + 4 then throw (.refused .truncatedExtension)
    let high ← byteAt d (start + 2)
    let low ← byteAt d (start + 3)
    let words := decode [high, low]
    if stop < start + 4 + 4 * words then throw (.refused .truncatedExtension)
    return start + 4 + 4 * words
  else return start

/-- `parse`, with every byte read where it stands in the datagram. -/
def parseAt (d : List UInt8) : Except ReadFault RtpPacket := do
  if d.length < headerSize then throw (.refused (.tooShort d.length))
  let first ← byteAt d 0
  if versionOf first ≠ 2 then throw (.refused (.unsupportedVersion (versionOf first)))
  let stop ← stopAt first d
  let start ← startAt first d stop
  let second ← byteAt d 1
  let sequence ← slice d 2 4
  let time ← slice d 4 8
  let ssrc ← slice d 8 12
  let payload ← slice d start stop
  return {
    payloadType := second % 128
    marker := 128 ≤ second
    sequence := UInt16.ofNat (decode sequence)
    time := UInt32.ofNat (decode time)
    ssrc := UInt32.ofNat (decode ssrc)
    payload }

/-- The offset at which the payload stops is the length of what remains without the padding. -/
theorem stopAt_eq {first : UInt8} {d : List UInt8} (hlong : headerSize ≤ d.length) :
    stopAt first d = ((unpad first d).map List.length).mapError .refused := by
  have hpos : 0 < d.length := Nat.lt_of_lt_of_le (by decide) hlong
  -- the datagram is not empty, so it has a last byte
  have hlast : byteAt d (d.length - 1) = pure (d.getLastD 0) := by
    rw [byteAt_eq (Nat.sub_lt hpos (by decide)), List.getLastD_eq_getLast?,
      List.getLast?_eq_getElem?, List.getElem?_eq_getElem]
    rfl
  unfold stopAt unpad
  cases hasPadding first with
  | false => rfl
  | true =>
    simp only [if_true, minus_eq hpos, hlast, pure_bind]
    split
    case isTrue => rfl
    case isFalse hfits =>
      rw [minus_eq (by omega)]
      show Except.ok _ = Except.ok (d.take _).length
      rw [List.length_take, Nat.min_eq_left (Nat.sub_le _ _)]

theorem take_two {l : List UInt8} {i : Nat} (h : i + 1 < l.length) :
    (l.drop i).take 2 = [l[i], l[i + 1]] := by
  rw [List.drop_eq_getElem_cons (by omega), List.drop_eq_getElem_cons h]
  rfl

/-- The offset at which the payload starts is the length of what stands in front of it. -/
theorem startAt_eq {first : UInt8} {d kept : List UInt8} (hkept : headerSize ≤ kept.length)
    (h : kept <+: d) :
    startAt first d kept.length =
      ((payloadOf first kept).map (kept.length - ·.length)).mapError .refused := by
  unfold startAt payloadOf skipCsrcs
  simp only [List.length_drop, List.drop_drop]
  generalize hstart : headerSize + 4 * csrcCount first = start
  -- sources, then the four bytes that announce the extension, then its words: what is too short for
  -- `parse` is too short here
  by_cases hshort : kept.length < start
  · rw [if_pos hshort, if_pos (show _ < 4 * csrcCount first by omega)]
    rfl
  · rw [if_neg hshort, if_neg (show ¬ _ < 4 * csrcCount first by omega)]
    cases hasExtension first with
    | false =>
      show Except.ok _ = Except.ok (_ - (kept.drop start).length)
      rw [List.length_drop, Nat.sub_sub_self (Nat.le_of_not_lt hshort)]
    | true =>
      simp only [if_true, pure_bind]
      unfold skipExtension
      simp only [List.length_drop, List.drop_drop]
      by_cases hfour : kept.length < start + 4
      · rw [if_pos hfour, if_pos (show _ < 4 by omega)]
        rfl
      · have hlength := h.length_le
        have hcount : decode [d[start + 2], d[start + 3]] =
            decode ((kept.drop (start + 2)).take 2) := by
          rw [take_two (by omega), h.getElem, h.getElem]
        rw [if_neg hfour, if_neg (show ¬ _ < 4 by omega)]
        simp only [byteAt_eq (show start + 2 < d.length by omega),
          byteAt_eq (show start + 3 < d.length by omega), pure_bind, hcount]
        generalize decode ((kept.drop (start + 2)).take 2) = words
        by_cases hwords : kept.length < start + 4 + 4 * words
        · rw [if_pos hwords, if_pos (show _ < 4 + 4 * words by omega)]
          rfl
        · rw [if_neg hwords, if_neg (show ¬ _ < 4 + 4 * words by omega)]
          show Except.ok _ = Except.ok (_ - (kept.drop (start + (4 + 4 * words))).length)
          rw [List.length_drop, Nat.sub_sub_self (by omega), Nat.add_assoc]

/-- A field of the header stands at its offset in the datagram. -/
theorem slice_header {d : List UInt8} {i k : Nat} (hfits : i + k ≤ headerSize)
    (hlong : headerSize ≤ d.length) :
    slice d i (i + k) = pure (((d.take headerSize).drop i).take k) := by
  have hwithin : k ≤ headerSize - i := by omega
  rw [slice_eq (Nat.le_add_right i k) (by omega), List.drop_take, Nat.add_sub_cancel_left,
    List.drop_take, List.take_take, Nat.min_eq_left hwithin]

/-- The payload is what ends the datagram when the padding is cut off. -/
theorem slice_payload {first : UInt8} {d kept payload : List UInt8} (hkept : kept <+: d)
    (h : payloadOf first kept = .ok payload) :
    slice d (kept.length - payload.length) kept.length = pure payload := by
  obtain ⟨sources, extension, -, -, happend⟩ := payloadOf_eq_ok_iff.1 h
  have hsuffix : payload <:+ kept := by
    refine List.IsSuffix.trans ?_ (List.drop_suffix headerSize kept)
    rw [← happend, ← List.append_assoc]
    exact List.suffix_append _ _
  rw [slice_eq (Nat.sub_le _ _) hkept.length_le, ← List.prefix_iff_eq_take.1 hkept,
    ← List.suffix_iff_eq_drop.1 hsuffix]

/-- No index is out of bounds, and what is read is what `parse` reads. -/
theorem parseAt_eq (d : List UInt8) : parseAt d = (parse d).mapError .refused := by
  by_cases hshort : d.length < headerSize
  · unfold parseAt parse
    rw [if_pos hshort, if_pos hshort]
    rfl
  have hlong : headerSize ≤ d.length := Nat.le_of_not_lt hshort
  match d with
  | [] | [_] => exact absurd (by simp [headerSize]) hshort
  | first :: second :: rest =>
    have hfirst : byteAt (first :: second :: rest) 0 = pure first := byteAt_eq (by simp)
    have hsecond : byteAt (first :: second :: rest) 1 = pure second := byteAt_eq (by simp)
    unfold parseAt
    rw [parse_cons hlong, if_neg hshort]
    simp only [hfirst, hsecond, pure_bind, stopAt_eq hlong]
    split
    case isTrue => rfl
    case isFalse hversion =>
      cases hunpad : unpad first (first :: second :: rest) with
      | error e => rfl
      | ok kept =>
        -- without its padding a datagram is a first part of itself, so the offsets stay
        obtain ⟨padding, -, happend, hkept, -⟩ := (unpad_eq_ok_iff hlong).1 hunpad
        have hprefix : kept <+: first :: second :: rest := ⟨_, happend⟩
        show (startAt first _ kept.length >>= _) =
          (payloadOf first kept >>= _ : Except RtpError RtpPacket).mapError _
        rw [startAt_eq hkept hprefix]
        cases hpayload : payloadOf first kept with
        | error e => rfl
        | ok payload =>
          have hstart : ((Except.ok payload).map (kept.length - ·.length)).mapError refused =
              pure (kept.length - payload.length) := rfl
          -- the header is long enough for every field that is read
          have hsequence := slice_header (i := 2) (k := 2) (by decide) hlong
          have htime := slice_header (i := 4) (k := 4) (by decide) hlong
          have hssrc := slice_header (i := 8) (k := 4) (by decide) hlong
          simp only [Nat.reduceAdd] at hsequence htime hssrc
          simp only [hstart, hsequence, htime, hssrc, slice_payload hprefix hpayload, pure_bind]
          rfl

/-! ### What is accepted -/

/-- `parse` accepts the datagrams that fall into their parts, each in one way, and brings the fields
of the header and the payload; whatever is written it reads, and it reads within bounds. -/
theorem parse_exact :
    (∀ d p, parse d = .ok p ↔ ∃ f : RtpFrame, f.Counted ∧ f.bytes = d ∧ f.toRtpPacket = p) ∧
      (∀ f g : RtpFrame, f.Counted → g.Counted → f.bytes = g.bytes → f = g) ∧
      (∀ f : RtpFrame, f.padding = none → parse f.bytes = .ok f.toRtpPacket) ∧
      (∀ (f : RtpFrame) (fill : List UInt8), fill.length < 255 →
        parse (f.padded fill).bytes = .ok f.toRtpPacket) ∧
      (∀ p : RtpPacket, p.payloadType < 128 → parse p.toBytes = .ok p) ∧
      ∀ d, parseAt d = (parse d).mapError .refused := by
  refine ⟨fun _ _ => RtpFrame.parse_eq_ok_iff, fun _ _ => RtpFrame.bytes_inj,
    fun _ h => RtpFrame.parse_bytes (RtpFrame.counted_of_padding_eq_none h),
    fun f _ h => RtpFrame.parse_bytes (f.counted_padded h), ?_, parseAt_eq⟩
  intro p h
  rw [parse_toBytes, UInt8.mod_eq_of_lt h]

/-- Two contributing sources, an extension of one word, and a payload of two bytes. -/
def crowded : RtpFrame where
  payloadType := 96
  marker := true
  sequence := 65535
  time := 90000
  ssrc := 7
  payload := [1, 2]
  sources := [8, 9]
  extension := some ⟨0xBEDE, [5], by decide⟩
  padding := none
  seven_bits := by decide
  few_sources := by decide

theorem parse_crowded :
    crowded.padding = none ∧ parse crowded.bytes = .ok crowded.toRtpPacket ∧
      (∀ f : RtpFrame, f.Counted → f.bytes = crowded.bytes → f = crowded) ∧
      [0, 0].length < 255 ∧ parse (crowded.padded [0, 0]).bytes = .ok crowded.toRtpPacket ∧
      crowded.payloadType < 128 ∧
        parse crowded.toRtpPacket.toBytes = .ok crowded.toRtpPacket := by
  obtain ⟨-, hinj, hbare, hpadded, hplain, -⟩ := parse_exact
  have hcounted : crowded.Counted := RtpFrame.counted_of_padding_eq_none rfl
  refine ⟨rfl, hbare crowded rfl, ?_, by decide, hpadded crowded [0, 0] (by decide), by decide,
    hplain crowded.toRtpPacket (by decide)⟩
  intro f hf h
  exact hinj f crowded hf hcounted h

end RtpPacket

end Playout
