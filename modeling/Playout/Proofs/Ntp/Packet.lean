import Playout.Ntp.Packet
import Playout.Proofs.Bytes.BigEndian

/-!
# Time packets are read as they were written

A packet comes back from its bytes, whatever follows them, but for the bits of the small fields that
the first byte has no room for (`masked`). So the times always arrive as they were sent. The other
way round, every byte string that is long enough is read, and the packet that comes of it writes the
same bytes but for those that are not used:

    ofBytes_eq_ok_iff   bytes are read if and only if they begin with the fields of the packet
    flags_eq            every first byte is the row of its three fields
-/

namespace Playout.Ntp.Packet

open Bytes

/-- A packet as it can be sent: two bits of `leap`, three of `version` and of `mode`. -/
def masked (p : Packet) : Packet :=
  { p with leap := p.leap % 4, version := p.version % 8, mode := p.mode % 8 }

theorem length_toBytes (p : Packet) : p.toBytes.length = size := by
  simp [toBytes, word64, size]

/-! ## The first byte -/

theorem flags_fields (p : Packet) :
    p.flags / 64 = p.leap % 4 ∧ p.flags / 8 % 8 = p.version % 8 ∧ p.flags % 8 = p.mode % 8 := by
  have hleap : (p.leap % 4).toNat < 4 := Nat.mod_lt _ (by decide)
  have hversion : (p.version % 8).toNat < 8 := Nat.mod_lt _ (by decide)
  have hmode : (p.mode % 8).toNat < 8 := Nat.mod_lt _ (by decide)
  -- the three fields together fit the byte, so the sum does not wrap
  have hflags : p.flags.toNat =
      (p.leap % 4).toNat * 64 + (p.version % 8).toNat * 8 + (p.mode % 8).toNat := by
    have h64 : (64 : UInt8).toNat = 64 := rfl
    have h8 : (8 : UInt8).toNat = 8 := rfl
    rw [flags, UInt8.toNat_add, UInt8.toNat_add, UInt8.toNat_mul, UInt8.toNat_mul, h64, h8]
    omega
  refine ⟨UInt8.toNat_inj.mp ?_, UInt8.toNat_inj.mp ?_, UInt8.toNat_inj.mp ?_⟩
  · show p.flags.toNat / 64 = _
    omega
  · show p.flags.toNat / 8 % 8 = _
    omega
  · show p.flags.toNat % 8 = _
    omega

/-- The byte that holds the fields which were read from `first` is `first`. -/
theorem flags_eq {p : Packet} {first : UInt8} (hleap : p.leap = first / 64)
    (hversion : p.version = first / 8 % 8) (hmode : p.mode = first % 8) : p.flags = first := by
  have hfirst : first.toNat < 256 := first.toNat_lt
  apply UInt8.toNat_inj.mp
  rw [flags, hleap, hversion, hmode]
  show ((first.toNat / 64 % 4 * 64 % 256 + first.toNat / 8 % 8 % 8 * 8 % 256) % 256 +
    first.toNat % 8 % 8) % 256 = first.toNat
  omega

/-! ## The times -/

/-- The three times as they are sent. -/
def stamps (p : Packet) : List UInt8 :=
  word64 p.originate.raw ++ (word64 p.receive.raw ++ word64 p.transmit.raw)

theorem length_stamps (p : Packet) : p.stamps.length = 24 := by
  simp [stamps, word64]

theorem toBytes_eq (p : Packet) :
    p.toBytes = p.flags :: p.stratum :: (List.replicate 22 0 ++ p.stamps) := by
  simp only [toBytes, stamps, List.append_assoc, List.cons_append, List.nil_append]

/-- The times are read from behind 22 bytes of any kind. -/
theorem times_eq_some_iff {originate receive transmit : Timestamp} {bs rest : List UInt8} :
    times.run bs = some ((originate, receive, transmit), rest) ↔
      ∃ unused : List UInt8, unused.length = 22 ∧ bs = unused ++
        (word64 originate.raw ++ (word64 receive.raw ++ (word64 transmit.raw ++ rest))) := by
  unfold times
  simp only [Reader.bind_eq_some_iff, Reader.bytes_eq_some_iff, Reader.word64_eq_some_iff,
    Reader.pure_eq_some_iff, Prod.mk.injEq]
  constructor
  · intro ⟨unused, _, ⟨hunused, hbs⟩, o, _, ho, r, _, hr, t, _, ht, ⟨ho', hr', ht'⟩, hrest⟩
    subst hbs ho hr ht ho' hr' ht' hrest
    exact ⟨unused, hunused, rfl⟩
  · intro ⟨unused, hunused, hbs⟩
    exact ⟨unused, _, ⟨hunused, hbs⟩, _, _, rfl, _, _, rfl, _, _, rfl, ⟨rfl, rfl, rfl⟩, rfl⟩

/-! ## Packets -/

/-- Bytes are read if and only if they begin with the fields of the packet. -/
theorem ofBytes_eq_ok_iff {d : List UInt8} {p : Packet} :
    ofBytes d = .ok p ↔ ∃ (first : UInt8) (unused trailing : List UInt8),
      (p.leap = first / 64 ∧ p.version = first / 8 % 8 ∧ p.mode = first % 8) ∧
        unused.length = 22 ∧ d = first :: p.stratum :: (unused ++ (p.stamps ++ trailing)) := by
  constructor
  · intro h
    unfold ofBytes at h
    split at h
    · next first stratum rest =>
      split at h
      -- a first and a second byte, 22 that are not looked at, and three times
      · next originate receive transmit trailing htimes =>
        obtain ⟨unused, hunused, hrest⟩ := times_eq_some_iff.mp htimes
        cases h
        refine ⟨first, unused, trailing, ⟨rfl, rfl, rfl⟩, hunused, ?_⟩
        simp only [hrest, stamps, List.append_assoc]
      · cases h
    · cases h
  · intro ⟨first, unused, trailing, ⟨hleap, hversion, hmode⟩, hunused, hd⟩
    have htimes : times.run (unused ++ (p.stamps ++ trailing)) =
        some ((p.originate, p.receive, p.transmit), trailing) := by
      apply times_eq_some_iff.mpr
      refine ⟨unused, hunused, ?_⟩
      simp only [stamps, List.append_assoc]
    rw [hd]
    unfold ofBytes
    dsimp only
    rw [htimes]
    dsimp only
    rw [← hleap, ← hversion, ← hmode]
    rfl

/-- A packet is read again from its bytes, whatever follows them. -/
theorem ofBytes_toBytes_append (p : Packet) (rest : List UInt8) :
    ofBytes (p.toBytes ++ rest) = .ok p.masked := by
  obtain ⟨hleap, hversion, hmode⟩ := p.flags_fields
  apply ofBytes_eq_ok_iff.mpr
  refine ⟨p.flags, List.replicate 22 0, rest, ⟨hleap.symm, hversion.symm, hmode.symm⟩,
    List.length_replicate, ?_⟩
  rw [toBytes_eq, List.cons_append, List.cons_append, List.append_assoc]
  rfl

/-- What is read begins with two bytes that are written again, and 22 that are not. -/
theorem toBytes_of_ofBytes {d : List UInt8} {p : Packet} (h : ofBytes d = .ok p) :
    size ≤ d.length ∧
      p.toBytes = d.take 2 ++ List.replicate 22 0 ++ (d.drop 24).take 24 := by
  obtain ⟨first, unused, trailing, ⟨hleap, hversion, hmode⟩, hunused, rfl⟩ :=
    ofBytes_eq_ok_iff.mp h
  have hstamps := p.length_stamps
  constructor
  · simp only [size, List.length_cons, List.length_append]
    omega
  -- the stamps stand behind the two bytes and the 22 that are not used
  · have hdrop : (first :: p.stratum :: (unused ++ (p.stamps ++ trailing))).drop 24 =
        p.stamps ++ trailing := List.drop_left' hunused
    rw [hdrop, List.take_left' hstamps, toBytes_eq, flags_eq hleap hversion hmode]
    rfl

/-- Every byte string that is long enough is read. -/
theorem exists_ofBytes {d : List UInt8} (h : size ≤ d.length) : ∃ p, ofBytes d = .ok p := by
  obtain ⟨first, stratum, rest, rfl⟩ : ∃ first stratum rest, d = first :: stratum :: rest := by
    match d, h with
    | first :: stratum :: rest, _ => exact ⟨first, stratum, rest, rfl⟩
  simp only [size, List.length_cons] at h
  -- behind the unused bytes there are three words
  have hbehind : 8 ≤ (rest.drop 22).length := by
    rw [List.length_drop]
    omega
  obtain ⟨originate, afterOne, hbs⟩ := exists_word64 hbehind
  have hlength := congrArg List.length hbs
  simp only [List.length_drop, List.length_append, word64, length_encode] at hlength
  obtain ⟨receive, afterTwo, rfl⟩ := exists_word64 (show 8 ≤ afterOne.length by omega)
  simp only [List.length_append, word64, length_encode] at hlength
  obtain ⟨transmit, trailing, rfl⟩ := exists_word64 (show 8 ≤ afterTwo.length by omega)
  refine ⟨{ leap := first / 64, version := first / 8 % 8, mode := first % 8, stratum,
            originate := ⟨originate⟩, receive := ⟨receive⟩, transmit := ⟨transmit⟩ }, ?_⟩
  apply ofBytes_eq_ok_iff.mpr
  refine ⟨first, rest.take 22, trailing, ⟨rfl, rfl, rfl⟩, List.length_take_of_le (by omega), ?_⟩
  simp only [stamps, List.append_assoc]
  rw [← hbs, List.take_append_drop]

/-- A byte string that is too short is refused with its length. -/
theorem ofBytes_of_short {d : List UInt8} (h : d.length < size) :
    ofBytes d = .error ⟨d.length⟩ := by
  have hrefused : ∀ p, ofBytes d ≠ .ok p := by
    intro p hp
    have := (toBytes_of_ofBytes hp).1
    omega
  unfold ofBytes at hrefused ⊢
  split
  · split
    · next htimes => -- every byte string that is read is long enough
      simp only [htimes] at hrefused
      exact absurd rfl (hrefused _)
    · rfl
  · rfl

/-- **Writing and reading undo each other.** A packet is read from its bytes, whatever follows, with
the bits that its first byte holds. Every byte string of at least 48 bytes is read, and what is read
writes its bytes 0, 1 and 24 to 47 again, with zeros between them. A shorter one is refused, and the
error says how long it was. -/
theorem packet_codec :
    (∀ (p : Packet) (trailing : List UInt8), ofBytes (p.toBytes ++ trailing) = .ok p.masked) ∧
    (∀ d : List UInt8, size ≤ d.length → ∃ p, ofBytes d = .ok p ∧
      p.toBytes = d.take 2 ++ List.replicate 22 0 ++ (d.drop 24).take 24) ∧
    ∀ d : List UInt8, d.length < size → ofBytes d = .error ⟨d.length⟩ := by
  refine ⟨ofBytes_toBytes_append, ?_, fun d => ofBytes_of_short⟩
  intro d h
  obtain ⟨p, hp⟩ := exists_ofBytes h
  exact ⟨p, hp, (toBytes_of_ofBytes hp).2⟩

/-- A reply with bytes where none are used, and one behind it. -/
def crowdedReply : List UInt8 :=
  [0xE4, 2] ++ List.replicate 22 7 ++ (word64 1 ++ word64 2 ++ word64 3) ++ [9]

theorem codec_of_crowdedReply :
    size ≤ crowdedReply.length ∧
    (∃ p, ofBytes crowdedReply = .ok p ∧ p.toBytes =
      [0xE4, 2] ++ List.replicate 22 0 ++ (word64 1 ++ word64 2 ++ word64 3)) ∧
    [0xE4, 2].length < size ∧ ofBytes [0xE4, 2] = .error ⟨2⟩ := by
  obtain ⟨-, hread, hshort⟩ := packet_codec
  have hlong : size ≤ crowdedReply.length := by decide
  have htwo : [0xE4, 2].length < size := by decide
  exact ⟨hlong, hread crowdedReply hlong, htwo, hshort [0xE4, 2] htwo⟩

end Playout.Ntp.Packet
