import Mathlib.Data.List.Basic
import Playout.Proofs.Bytes.BigEndian
import Playout.Rtp.Packet

/-!
# The grammar of media datagrams

An `RtpFrame` names every part of a datagram, those that `parse` leaves out included, and `bytes`
writes them one behind the other. `parse` accepts what can be written so and nothing else: each of
its steps takes one part off (`unpad_eq_ok_iff`, `skipCsrcs_eq_ok_iff`, `skipExtension_eq_ok_iff`),
and no datagram is written in two ways.

    parse_eq_ok_iff : parse d = .ok p ↔ ∃ f : RtpFrame, f.Counted ∧ f.bytes = d ∧ f.toRtpPacket = p
    bytes_inj : f.bytes = g.bytes → f = g

A frame with padding is `Counted` when the last byte of the datagram is the length of the padding.
Padding of no bytes is possible: then the last byte of what stands before it is zero.
-/

namespace Playout

/-- What stands between the contributing sources and the payload. -/
@[ext]
structure RtpExtension where
  profile : UInt16
  words : List UInt32
  /-- Their number is written in 16 bits. -/
  fits : words.length < 2 ^ 16

/-- The parts of a datagram. -/
structure RtpFrame extends RtpPacket where
  /-- The contributing sources -/
  sources : List UInt32
  extension : Option RtpExtension
  padding : Option (List UInt8)
  seven_bits : payloadType < 128
  few_sources : sources.length < 16

open Bytes

/-- Two optional values that are both there, or both missing, are told apart by what they write. -/
theorem eq_of_elim_eq {α β : Type} {write : α → β} {default : β} {a b : Option α}
    (hwrite : ∀ x y, write x = write y → x = y) (h : a.isSome = b.isSome)
    (helim : a.elim default write = b.elim default write) : a = b := by
  cases a with
  | none => cases b with
    | none => rfl
    | some y => cases h
  | some x => cases b with
    | none => cases h
    | some y => exact congrArg some (hwrite x y helim)

/-! ### The header -/

namespace RtpPacket

/-- The first byte: version 2, whether there is padding and an extension, how many sources. -/
def leading (padding extension : Bool) (sources : Nat) : UInt8 :=
  UInt8.ofNat (128 + (if padding then 32 else 0) + (if extension then 16 else 0) + sources)

/-- What the first byte says can be read off again. -/
theorem leading_fields {padding extension : Bool} {sources : Nat} (h : sources < 16) :
    versionOf (leading padding extension sources) = 2 ∧
      hasPadding (leading padding extension sources) = padding ∧
      hasExtension (leading padding extension sources) = extension ∧
      csrcCount (leading padding extension sources) = sources := by
  have hnat : (leading padding extension sources).toNat =
      128 + (if padding then 32 else 0) + (if extension then 16 else 0) + sources := by
    unfold leading
    rw [UInt8.toNat_ofNat']
    cases padding <;> cases extension <;> simp <;> omega
  unfold versionOf hasPadding hasExtension csrcCount
  rw [hnat]
  cases padding <;> cases extension <;> simp <;> omega

/-- Every first byte of version 2 is written so. -/
theorem leading_eq {first : UInt8} (h : versionOf first = 2) :
    leading (hasPadding first) (hasExtension first) (csrcCount first) = first := by
  unfold versionOf at h
  unfold leading hasPadding hasExtension csrcCount
  rw [← UInt8.toNat_inj, UInt8.toNat_ofNat']
  simp only [decide_eq_true_eq]
  split <;> split <;> omega

/-- The second byte: the marker in the highest bit, the payload type in the others. -/
def second (p : RtpPacket) : UInt8 := (if p.marker then 128 else 0) + p.payloadType % 128

/-- So can what the second byte says. -/
theorem second_fields (p : RtpPacket) :
    p.second % 128 = p.payloadType % 128 ∧ decide (128 ≤ p.second) = p.marker := by
  have hlt := p.payloadType.toNat_lt
  unfold second
  cases p.marker <;>
    simp only [Bool.false_eq_true, if_false, if_true, ← UInt8.toNat_inj, UInt8.le_iff_toNat_le,
      UInt8.toNat_mod, UInt8.toNat_add, UInt8.reduceToNat, decide_eq_true_eq,
      decide_eq_false_iff_not] <;>
    omega

/-- The fixed header behind a given first byte. -/
def header (first : UInt8) (p : RtpPacket) : List UInt8 :=
  [first, p.second] ++ word16 p.sequence ++ word32 p.time ++ word32 p.ssrc

@[simp] theorem length_header (first : UInt8) (p : RtpPacket) :
    (p.header first).length = headerSize := by
  simp [header, word16, word32, headerSize]

/-- Every field stands where it is read. -/
theorem ofHeader_header (first : UInt8) (p : RtpPacket) :
    ofHeader p.second (p.header first) p.payload =
      { p with payloadType := p.payloadType % 128 } := by
  obtain ⟨htype, hmarker⟩ := p.second_fields
  -- each field is the row of bytes between its offsets
  have htwo : (word16 p.sequence).length = 2 := length_encode 2 _
  have hfour : ∀ w, (word32 w).length = 4 := fun w => length_encode 4 _
  have hsequence : ((p.header first).drop 2).take 2 = word16 p.sequence := by
    unfold header
    rw [List.append_assoc, List.append_assoc, List.drop_left' (show [_, _].length = 2 from rfl),
      List.take_left' htwo]
  have htime : ((p.header first).drop 4).take 4 = word32 p.time := by
    unfold header
    rw [List.append_assoc, List.drop_left' (by simp [htwo]), List.take_left' (hfour _)]
  have hssrc : ((p.header first).drop 8).take 4 = word32 p.ssrc := by
    unfold header
    rw [List.drop_left' (by simp [htwo, hfour]), List.take_of_length_le (Nat.le_of_eq (hfour _))]
  unfold ofHeader
  rw [htype, hmarker, hsequence, htime, hssrc, decode_word16, decode_word32, decode_word32]

theorem second_ofHeader (second : UInt8) (header payload : List UInt8) :
    (ofHeader second header payload).second = second := by
  have hlt := second.toNat_lt
  unfold ofHeader RtpPacket.second
  simp only [decide_eq_true_eq]
  split <;>
    simp_all only [← UInt8.toNat_inj, UInt8.le_iff_toNat_le, UInt8.toNat_mod, UInt8.toNat_add,
      UInt8.reduceToNat] <;>
    omega

/-- Every twelve bytes are the header of the packet that is read from them. -/
theorem header_ofHeader {first second : UInt8} {rest : List UInt8} (payload : List UInt8)
    (h : rest.length = 10) :
    (ofHeader second (first :: second :: rest) payload).header first = first :: second :: rest := by
  have hsequence : (rest.take 2).length = 2 := by rw [List.length_take]; omega
  have htime : ((rest.drop 2).take 4).length = 4 := by
    rw [List.length_take, List.length_drop]; omega
  have hssrc : ((rest.drop 6).take 4).length = 4 := by
    rw [List.length_take, List.length_drop]; omega
  -- the three fields are all of the ten bytes
  have hrest : rest.take 2 ++ ((rest.drop 2).take 4 ++ (rest.drop 6).take 4) = rest := by
    have hlast : (rest.drop 6).take 4 = (rest.drop 2).drop 4 := by
      rw [List.drop_drop]
      exact List.take_of_length_le (by rw [List.length_drop]; omega)
    rw [hlast, List.take_append_drop, List.take_append_drop]
  unfold header
  rw [second_ofHeader]
  simp only [ofHeader, List.drop_succ_cons, List.drop_zero, word16_decode hsequence,
    word32_decode htime, word32_decode hssrc, List.append_assoc, hrest]
  rfl

/-! ### One part after the other -/

/-- The padding that is cut off is as long as the last byte says, and leaves the header alone. -/
theorem unpad_eq_ok_iff {first : UInt8} {d kept : List UInt8} (hlong : headerSize ≤ d.length) :
    unpad first d = .ok kept ↔
      ∃ padding : Option (List UInt8), padding.isSome = hasPadding first ∧
        kept ++ padding.elim [] id = d ∧ headerSize ≤ kept.length ∧
        ∀ tail, padding = some tail → tail.length = (d.getLastD 0).toNat := by
  unfold unpad
  cases hasPadding first with
  | false =>
    constructor
    · intro h
      cases h
      exact ⟨none, rfl, List.append_nil _, hlong, fun _ h => nomatch h⟩
    · rintro ⟨padding, hnone, rfl, -, -⟩
      rw [Option.isSome_eq_false_iff.1 hnone |> Option.isNone_iff_eq_none.1]
      exact congrArg Except.ok (List.append_nil kept)
  | true =>
    simp only [if_true]
    constructor
    · intro h
      split at h
      case isTrue => cases h
      case isFalse hfits => -- what is cut off is the padding
        cases h
        refine ⟨some (d.drop (d.length - (d.getLastD 0).toNat)), rfl, List.take_append_drop _ _,
          ?_, ?_⟩
        · rw [List.length_take]
          omega
        · rintro _ ⟨⟩
          rw [List.length_drop]
          omega
    · rintro ⟨padding, hsome, happend, hkept, hcount⟩
      obtain ⟨tail, rfl⟩ := Option.isSome_iff_exists.1 hsome
      -- the padding is as long as its last byte says, so just that is cut off
      have hlength : d.length = kept.length + (d.getLastD 0).toNat := by
        rw [← hcount tail rfl, ← happend, List.length_append]
        rfl
      rw [if_neg (by omega), hlength, Nat.add_sub_cancel, ← happend, List.take_left]
      rfl

/-- As many words are skipped as the first byte says. -/
theorem skipCsrcs_eq_ok_iff {count : Nat} {body rest : List UInt8} :
    skipCsrcs count body = .ok rest ↔
      ∃ sources : List UInt32, sources.length = count ∧ row sources ++ rest = body := by
  unfold skipCsrcs
  split
  case isTrue hshort =>
    constructor
    · intro h
      cases h
    · rintro ⟨sources, rfl, rfl⟩
      rw [List.length_append, length_row] at hshort
      omega
  case isFalse hlong => -- the bytes that are skipped are a row of words
    constructor
    · intro h
      cases h
      obtain ⟨sources, hcount, hrow⟩ := exists_row count (body.take (4 * count))
        (by rw [List.length_take]; omega)
      exact ⟨sources, hcount, by rw [hrow, List.take_append_drop]⟩
    · rintro ⟨sources, rfl, rfl⟩
      rw [List.drop_left' (length_row sources)]
      rfl

end RtpPacket

namespace RtpExtension

open RtpPacket

def bytes (e : RtpExtension) : List UInt8 :=
  word16 e.profile ++ word16 (UInt16.ofNat e.words.length) ++ row e.words

theorem count_words (e : RtpExtension) : (UInt16.ofNat e.words.length).toNat = e.words.length :=
  UInt16.toNat_ofNat_of_lt' e.fits

theorem length_bytes (e : RtpExtension) : e.bytes.length = 4 + 4 * e.words.length := by
  simp [bytes, word16]
  omega

/-- The number of words is read where it was written. -/
theorem decode_count (e : RtpExtension) (rest : List UInt8) :
    decode (((e.bytes ++ rest).drop 2).take 2) = e.words.length := by
  have htwo : ∀ w, (word16 w).length = 2 := fun w => length_encode 2 _
  unfold bytes
  rw [List.append_assoc, List.append_assoc, List.drop_left' (htwo _), List.take_left' (htwo _),
    word16, decode_encode, count_words]
  exact Nat.mod_eq_of_lt e.fits

theorem bytes_inj {e e' : RtpExtension} (h : e.bytes = e'.bytes) : e = e' := by
  unfold bytes at h
  obtain ⟨hfront, hrow⟩ := List.append_inj h (by simp [word16])
  obtain ⟨hprofile, -⟩ := List.append_inj hfront (by simp [word16])
  ext1
  · rw [← decode_word16 e.profile, hprofile, decode_word16]
  · exact row_inj hrow

end RtpExtension

namespace RtpPacket

/-- What is long enough for the words that it counts starts with an extension. -/
theorem exists_extension {body : List UInt8}
    (hlong : 4 + 4 * decode ((body.drop 2).take 2) ≤ body.length) :
    ∃ e : RtpExtension, e.words.length = decode ((body.drop 2).take 2) ∧
      e.bytes = body.take (4 + 4 * decode ((body.drop 2).take 2)) := by
  have hprofile : (body.take 2).length = 2 := by rw [List.length_take]; omega
  have hcount : ((body.drop 2).take 2).length = 2 := by
    rw [List.length_take, List.length_drop]; omega
  have hfits : decode ((body.drop 2).take 2) < 2 ^ 16 := by
    simpa [hcount] using decode_lt ((body.drop 2).take 2)
  -- the bytes behind the count are a row of as many words
  obtain ⟨ws, hlength, hrow⟩ := exists_row (decode ((body.drop 2).take 2))
    ((body.drop 4).take (4 * decode ((body.drop 2).take 2)))
    (by rw [List.length_take, List.length_drop]; omega)
  refine ⟨⟨UInt16.ofNat (decode (body.take 2)), ws, hlength ▸ hfits⟩, hlength, ?_⟩
  unfold RtpExtension.bytes
  simp only [hlength, word16_decode hprofile, word16_decode hcount, hrow]
  rw [List.take_add, List.append_cancel_right_eq, ← List.take_add]

/-- The extension that is left out is as long as its count of words says. -/
theorem skipExtension_eq_ok_iff {body rest : List UInt8} :
    skipExtension body = .ok rest ↔ ∃ e : RtpExtension, e.bytes ++ rest = body := by
  unfold skipExtension
  constructor
  · intro h
    split at h
    case isTrue => cases h
    case isFalse hfour =>
      simp only at h
      split at h
      case isTrue => cases h
      case isFalse hlong => -- profile, count and words are there
        cases h
        obtain ⟨e, -, hbytes⟩ := exists_extension (Nat.le_of_not_lt hlong)
        exact ⟨e, by rw [hbytes, List.take_append_drop]⟩
  · rintro ⟨e, rfl⟩
    simp only [e.decode_count, List.length_append, e.length_bytes]
    rw [if_neg (by omega), if_neg (by omega), List.drop_left' e.length_bytes]
    rfl

theorem bind_eq_ok_iff {ε α β : Type} {x : Except ε α} {f : α → Except ε β} {b : β} :
    x >>= f = .ok b ↔ ∃ a, x = .ok a ∧ f a = .ok b := by
  cases x with
  | error e =>
    constructor
    · intro h
      cases h
    · rintro ⟨_, ⟨⟩, _⟩
  | ok a =>
    constructor
    · intro h
      exact ⟨a, rfl, h⟩
    · rintro ⟨_, ⟨⟩, h⟩
      exact h

/-- What is left without the header, the sources and the extension. -/
def payloadOf (first : UInt8) (kept : List UInt8) : Except RtpError (List UInt8) := do
  let body ← skipCsrcs (csrcCount first) (kept.drop headerSize)
  if hasExtension first then skipExtension body else pure body

/-- Sources and extension are taken off, each as long as it says. -/
theorem payloadOf_eq_ok_iff {first : UInt8} {kept payload : List UInt8} :
    payloadOf first kept = .ok payload ↔
      ∃ (sources : List UInt32) (extension : Option RtpExtension),
        sources.length = csrcCount first ∧ extension.isSome = hasExtension first ∧
          row sources ++ (extension.elim [] RtpExtension.bytes ++ payload) =
            kept.drop headerSize := by
  unfold payloadOf
  rw [bind_eq_ok_iff]
  constructor
  -- first the sources are taken off, and then the extension if there is one
  · rintro ⟨body, hskip, hpayload⟩
    obtain ⟨sources, hcount, hsources⟩ := skipCsrcs_eq_ok_iff.1 hskip
    cases hextension : hasExtension first with
    | false =>
      rw [hextension] at hpayload
      cases hpayload
      exact ⟨sources, none, hcount, rfl, hsources⟩
    | true =>
      rw [hextension] at hpayload
      obtain ⟨e, rfl⟩ := skipExtension_eq_ok_iff.1 hpayload
      exact ⟨sources, some e, hcount, rfl, hsources⟩
  · rintro ⟨sources, extension, hcount, hextension, hsources⟩
    refine ⟨_, skipCsrcs_eq_ok_iff.2 ⟨sources, hcount, hsources⟩, ?_⟩
    rw [← hextension]
    cases extension with
    | none => rfl
    | some e => exact skipExtension_eq_ok_iff.2 ⟨e, rfl⟩

/-- The steps of `parse`, when the header is there. -/
theorem parse_cons {first second : UInt8} {rest : List UInt8}
    (hlong : headerSize ≤ (first :: second :: rest).length) :
    parse (first :: second :: rest) =
      if versionOf first ≠ 2 then throw (.unsupportedVersion (versionOf first))
      else do
        let kept ← unpad first (first :: second :: rest)
        let payload ← payloadOf first kept
        return ofHeader second ((first :: second :: rest).take headerSize) payload := by
  unfold parse payloadOf
  rw [if_neg (Nat.not_lt.2 hlong)]
  simp only
  split
  case isTrue => rfl
  case isFalse =>
    refine bind_congr fun kept => ?_
    rw [bind_assoc]
    refine bind_congr fun body => ?_
    cases hasExtension first <;> rfl

end RtpPacket

namespace RtpFrame

open RtpPacket

/-- What the first byte says of the other parts. -/
def first (f : RtpFrame) : UInt8 :=
  leading f.padding.isSome f.extension.isSome f.sources.length

/-- The parts in front of the padding. -/
def front (f : RtpFrame) : List UInt8 :=
  f.header f.first ++ (row f.sources ++ (f.extension.elim [] RtpExtension.bytes ++ f.payload))

/-- The parts one behind the other. -/
def bytes (f : RtpFrame) : List UInt8 := f.front ++ f.padding.elim [] id

/-- The last byte of the datagram is the length of the padding, if there is padding. -/
def Counted (f : RtpFrame) : Prop :=
  ∀ tail, f.padding = some tail → tail.length = (f.bytes.getLastD 0).toNat

theorem first_fields (f : RtpFrame) :
    versionOf f.first = 2 ∧ hasPadding f.first = f.padding.isSome ∧
      hasExtension f.first = f.extension.isSome ∧ csrcCount f.first = f.sources.length :=
  leading_fields f.few_sources

theorem ofHeader_eq (f : RtpFrame) :
    ofHeader f.second (f.header f.first) f.payload = f.toRtpPacket := by
  have htype : f.payloadType % 128 = f.payloadType := UInt8.mod_eq_of_lt f.seven_bits
  rw [ofHeader_header, htype]

theorem counted_of_padding_eq_none {f : RtpFrame} (h : f.padding = none) : f.Counted := by
  intro tail htail
  rw [h] at htail
  cases htail

/-- The frame with filler behind its payload, and behind the filler the length of the padding. -/
def padded (f : RtpFrame) (fill : List UInt8) : RtpFrame :=
  { f with padding := some (fill ++ [UInt8.ofNat (fill.length + 1)]) }

/-- Such padding is counted. -/
theorem counted_padded (f : RtpFrame) {fill : List UInt8} (h : fill.length < 255) :
    (f.padded fill).Counted := by
  rintro _ ⟨⟩
  have hlast : (f.padded fill).bytes.getLastD 0 = UInt8.ofNat (fill.length + 1) := by
    show ((f.padded fill).front ++ (fill ++ [UInt8.ofNat (fill.length + 1)])).getLastD 0 = _
    rw [← List.append_assoc, List.getLastD_concat]
  have hsize : fill.length + 1 < 2 ^ 8 := by omega
  rw [hlast, UInt8.toNat_ofNat_of_lt' hsize, List.length_append]
  rfl

/-- What `bytes` writes is accepted. -/
theorem parse_bytes {f : RtpFrame} (h : f.Counted) : parse f.bytes = .ok f.toRtpPacket := by
  obtain ⟨hversion, hpadding, hextension, hcount⟩ := f.first_fields
  have hheader : (f.header f.first).length = headerSize := length_header _ _
  have hfront : headerSize ≤ f.front.length := by
    rw [front, List.length_append, hheader]
    omega
  have hlong : headerSize ≤ f.bytes.length := by
    rw [bytes, List.length_append]
    omega
  have htake : f.bytes.take headerSize = f.header f.first := by
    rw [bytes, front, List.append_assoc, List.take_left' hheader]
  -- each step of `parse` takes off the part that was written for it
  have hunpad : unpad f.first f.bytes = .ok f.front :=
    (unpad_eq_ok_iff hlong).2 ⟨f.padding, hpadding.symm, rfl, hfront, h⟩
  have hpayload : payloadOf f.first f.front = .ok f.payload :=
    payloadOf_eq_ok_iff.2 ⟨f.sources, f.extension, hcount.symm, hextension.symm,
      (List.drop_left' hheader).symm⟩
  refine (parse_cons hlong).trans ?_
  rw [if_neg (not_not.2 hversion)]
  refine bind_eq_ok_iff.2 ⟨_, hunpad, bind_eq_ok_iff.2 ⟨_, hpayload, ?_⟩⟩
  exact congrArg Except.ok ((congrArg (ofHeader _ · _) htake).trans f.ofHeader_eq)

/-- What is accepted is written by `bytes`. -/
theorem exists_bytes {d : List UInt8} {p : RtpPacket} (h : parse d = .ok p) :
    ∃ f : RtpFrame, f.Counted ∧ f.bytes = d ∧ f.toRtpPacket = p := by
  obtain ⟨first, second, rest, rfl, hlong⟩ : ∃ first second rest, d = first :: second :: rest ∧
      headerSize ≤ (first :: second :: rest).length := by
    unfold parse at h
    split at h
    case isTrue => cases h
    case isFalse hlong =>
      match d with
      | first :: second :: rest => exact ⟨first, second, rest, rfl, Nat.le_of_not_lt hlong⟩
      | [] | [_] => cases h
  rw [parse_cons hlong] at h
  split at h
  case isTrue => cases h
  case isFalse hversion =>
  rw [not_not] at hversion
  -- each step of `parse` has taken one part off, and these parts are the frame
  obtain ⟨kept, hunpad, h⟩ := bind_eq_ok_iff.1 h
  obtain ⟨payload, hpayload, h⟩ := bind_eq_ok_iff.1 h
  cases h
  obtain ⟨padding, hpadding, happend, hkept, hcounted⟩ := (unpad_eq_ok_iff hlong).1 hunpad
  obtain ⟨sources, extension, hcount, hextension, hsources⟩ := payloadOf_eq_ok_iff.1 hpayload
  have hfront : (first :: second :: rest).take headerSize = first :: second :: rest.take 10 := rfl
  let f : RtpFrame :=
    { ofHeader second ((first :: second :: rest).take headerSize) payload with
      sources, extension, padding
      seven_bits := UInt8.mod_lt _ (by decide)
      few_sources := by
        rw [hcount]
        exact Nat.mod_lt _ (by decide) }
  -- the first byte says the same of the frame
  have hfirst : f.first = first := by
    show leading padding.isSome extension.isSome sources.length = first
    rw [hpadding, hextension, hcount, leading_eq hversion]
  have hheader : f.header f.first = kept.take headerSize := by
    have hten : (rest.take 10).length = 10 := by
      rw [List.length_take]
      simp only [List.length_cons, headerSize] at hlong
      omega
    rw [hfirst]
    refine (header_ofHeader payload hten).trans ?_
    rw [← hfront, ← happend, List.take_append_of_le_length hkept]
  have hbytes : f.bytes = first :: second :: rest := by
    rw [← happend, ← List.take_append_drop headerSize kept, ← hsources, bytes, front, hheader]
    rfl
  refine ⟨f, ?_, hbytes, rfl⟩
  unfold Counted
  rw [hbytes]
  exact hcounted

/-- The datagrams that are accepted, and what they bring. -/
theorem parse_eq_ok_iff {d : List UInt8} {p : RtpPacket} :
    parse d = .ok p ↔ ∃ f : RtpFrame, f.Counted ∧ f.bytes = d ∧ f.toRtpPacket = p := by
  constructor
  · exact exists_bytes
  · rintro ⟨f, hcounted, rfl, rfl⟩
    exact parse_bytes hcounted

/-- Padding of no bytes, counted by the last byte of the header -/
example : (parse [0xA0, 96, 0, 1, 0, 0, 0, 0, 0, 0, 0, 0]).isOk = true := by decide

/-- As many bytes are padding as the last byte of the datagram says. -/
theorem Counted.length_padding {f : RtpFrame} (h : f.Counted) :
    (f.padding.elim [] id).length =
      if hasPadding f.first then (f.bytes.getLastD 0).toNat else 0 := by
  rw [f.first_fields.2.1]
  cases hpadding : f.padding with
  | none => rfl
  | some tail => exact h tail hpadding

/-- A datagram falls into its parts in one way. -/
theorem bytes_inj {f g : RtpFrame} (hf : f.Counted) (hg : g.Counted) (h : f.bytes = g.bytes) :
    f = g := by
  have hpacket : f.toRtpPacket = g.toRtpPacket := by
    apply Except.ok.inj
    rw [← parse_bytes hf, ← parse_bytes hg, h]
  have hfirst : f.first = g.first := congrArg (·.headD 0) h
  obtain ⟨-, hpadding, hextension, hcount⟩ := f.first_fields
  obtain ⟨-, hpadding', hextension', hcount'⟩ := g.first_fields
  rw [hfirst] at hpadding hextension hcount
  -- the tails are of one length, so they are cut off at one place
  obtain ⟨hfront, htail⟩ := List.append_inj' h
    (by rw [hf.length_padding, hg.length_padding, hfirst, h])
  obtain ⟨-, hbody⟩ := List.append_inj hfront (by rw [length_header, length_header])
  obtain ⟨hsources, hrest⟩ := List.append_inj hbody
    (by rw [length_row, length_row, ← hcount, hcount'])
  rw [hpacket] at hrest
  cases f
  cases g
  simp only [RtpFrame.mk.injEq]
  exact ⟨hpacket, row_inj hsources,
    eq_of_elim_eq (fun _ _ => RtpExtension.bytes_inj) (hextension.symm.trans hextension')
      (List.append_cancel_right hrest),
    eq_of_elim_eq (fun _ _ => id) (hpadding.symm.trans hpadding') htail⟩

end RtpFrame

/-! ## Packets are read as they were written

The first byte that `toBytes` writes announces a fixed header alone, so a packet is sent as the
frame without sources, extension and padding. -/

namespace RtpPacket

/-- The frame in which a packet is sent. -/
def bare (p : RtpPacket) : RtpFrame where
  toRtpPacket := { p with payloadType := p.payloadType % 128 }
  sources := []
  extension := none
  padding := none
  seven_bits := UInt8.mod_lt _ (by decide)
  few_sources := by decide

theorem counted_bare (p : RtpPacket) : p.bare.Counted := fun _ h => nomatch h

/-- That is what `toBytes` writes. -/
theorem bytes_bare (p : RtpPacket) : p.bare.bytes = p.toBytes := by
  have hsecond : p.bare.second = p.second := by
    show (if p.marker then 128 else 0) + p.payloadType % 128 % 128 = _
    rw [UInt8.mod_eq_of_lt (UInt8.mod_lt _ (by decide))]
    rfl
  show [p.bare.first, p.bare.second] ++ _ ++ _ ++ _ ++ p.payload ++ [] = _
  rw [hsecond, List.append_nil]
  rfl

/-- A packet is read as it was written. -/
theorem parse_toBytes (p : RtpPacket) :
    parse p.toBytes = .ok { p with payloadType := p.payloadType % 128 } := by
  rw [← bytes_bare]
  exact RtpFrame.parse_bytes p.counted_bare

end RtpPacket

end Playout
