import Playout.Proofs.Ntp.Micros

/-!
# Signed spans in fixed point and back

A span of microseconds becomes fixed point by rounding toward zero, and fixed point becomes
microseconds by rounding down. Each way is one division of integers:

    units_ofMicros : (ofMicros us).units = (2 ^ 32 * us).tdiv (10 ^ 6)
    toMicros_eq    : d.toMicros = d.units * 10 ^ 6 / 2 ^ 32

Of a positive span both divisions drop something, and it comes back a microsecond shorter unless
nothing was dropped. Of a negative one the first adds less than a microsecond, which the second
takes away again, and it comes back as it was. Either way no span comes back longer than it was.
-/

namespace Playout.Ntp.Interval

/-- A span of less than `2 ^ 31` seconds, which are 68 years, in either direction. -/
def Short (us : Int) : Prop := us.natAbs < 2 ^ 31 * microsPerSecond

instance (us : Int) : Decidable (Short us) := inferInstanceAs (Decidable (_ < _))

/-! ## Words -/

/-- The magnitude of a signed word. -/
def magnitude (us : Int64) : UInt64 := UInt64.ofNat us.toInt.natAbs

/-- `ofMicros` with operations on words. -/
def spanWord (us : Int64) : Int64 :=
  let fixed := (fixedWord (magnitude us)).toInt64
  if us < 0 then -fixed else fixed

/-- The units of a span times a million, in 128 bits. -/
def scaledUnits (raw : Int64) : BitVec 128 := raw.toBitVec.signExtend 128 * 1000000#128

/-- `toMicros` with operations on words. -/
def spanMicrosWord (raw : Int64) : Int64 :=
  Int64.ofBitVec (((scaledUnits raw).sshiftRight 32).setWidth 64)

/-- No bit is lost on the way to fixed point: the magnitude is converted without loss, it keeps its
value as a signed word, and the result is the exact quotient. -/
structure MadeWithoutLoss (us : Int) : Prop where
  magnitude : FixedWithoutLoss us.natAbs
  signed : (fixedWord (UInt64.ofNat us.natAbs)).toInt64.toInt = fixedOfMicros us.natAbs
  result : (spanWord (Int64.ofInt us)).toInt = (unitsPerSecond * us).tdiv microsPerSecond

/-- No bit is lost on the way to microseconds. -/
structure ReadWithoutLoss (d : Interval) : Prop where
  product : (scaledUnits d.raw).toInt = d.units * microsPerSecond
  result : (spanMicrosWord d.raw).toInt = d.toMicros

theorem toMicros_eq (d : Interval) : d.toMicros = d.units * microsPerSecond / unitsPerSecond := rfl

/-- From no span anything is lost. -/
theorem read_without_loss (d : Interval) : d.ReadWithoutLoss := by
  obtain ⟨hlow, hhigh⟩ := d.representable_units
  -- 128 bits hold the product of a word and a million
  have hproduct : (scaledUnits d.raw).toInt = d.units * microsPerSecond := by
    have hunits : (d.raw.toBitVec.signExtend 128).toInt = d.units :=
      BitVec.toInt_signExtend_of_le (by decide)
    rw [scaledUnits, BitVec.toInt_mul, hunits]
    show (d.units * 1000000).bmod (2 ^ 128) = d.units * 1000000
    apply Int.bmod_eq_of_le <;> omega
  refine ⟨hproduct, ?_⟩
  have hquotient : ((scaledUnits d.raw).sshiftRight 32).toInt = d.toMicros := by
    rw [BitVec.toInt_sshiftRight, hproduct, Int.shiftRight_eq_div_pow]
    rfl
  have hrange : Representable d.toMicros := by
    rw [toMicros_eq]
    unfold Representable unitsPerSecond microsPerSecond
    omega
  -- the quotient is cut to 64 bits, which hold it
  have hcut : (((scaledUnits d.raw).sshiftRight 32).toNat : Int).bmod (2 ^ 64) =
      d.toMicros.bmod (2 ^ 64) := by
    rw [← hquotient, BitVec.toInt_eq_toNat_bmod, Int.bmod_bmod_of_dvd (by decide)]
  show (((scaledUnits d.raw).sshiftRight 32).setWidth 64).toInt = d.toMicros
  rw [BitVec.toInt_setWidth, hcut]
  exact Int.bmod_eq_of_le (by have := hrange.1; omega) (by have := hrange.2; omega)

/-! ## Short spans -/

section Short

variable {us us' : Int}

theorem Short.natAbs_lt (h : Short us) : us.natAbs < unitsPerSecond * microsPerSecond := by
  unfold Short at h
  unfold unitsPerSecond
  omega

theorem Short.representable (h : Short us) : Representable us := by
  unfold Short microsPerSecond at h
  unfold Representable
  omega

/-- The fixed point of the magnitude takes 63 bits, so that it has a negative. -/
theorem Short.fixedOfMicros_lt (h : Short us) : fixedOfMicros us.natAbs < 2 ^ 63 := by
  unfold Short at h
  rw [fixedOfMicros_eq]
  unfold unitsPerSecond
  unfold microsPerSecond at *
  omega

/-- The exact quotient, rounded toward zero, by the magnitude and the sign of the span. -/
theorem quotient_eq (us : Int) : (unitsPerSecond * us).tdiv microsPerSecond =
    if us < 0 then -(fixedOfMicros us.natAbs : Int) else fixedOfMicros us.natAbs := by
  rw [fixedOfMicros_eq]
  split
  · next hneg =>
    obtain ⟨n, rfl⟩ : ∃ n : Nat, us = -n := ⟨us.natAbs, by omega⟩
    rw [Int.mul_neg, Int.neg_tdiv, Int.natAbs_neg, Int.natAbs_natCast]
    rfl
  · next hpos =>
    obtain ⟨n, rfl⟩ : ∃ n : Nat, us = n := ⟨us.natAbs, by omega⟩
    rfl

theorem units_neg {d : Interval} (h : -2 ^ 63 < d.units) : (-d).units = -d.units := by
  have hhigh := d.representable_units.2
  show (-d.raw).toInt = -d.units
  rw [Int64.toInt_neg]
  exact Int.bmod_eq_of_le (by show _ ≤ -d.units; omega) (by show -d.units < _; omega)

/-- A short span is converted by one division, toward zero. -/
theorem units_ofMicros (h : Short us) :
    (ofMicros us).units = (unitsPerSecond * us).tdiv microsPerSecond := by
  have hlt := h.fixedOfMicros_lt
  have hmagnitude : (Interval.mk (Int64.ofNat (fixedOfMicros us.natAbs))).units =
      fixedOfMicros us.natAbs := Int64.toInt_ofNat_of_lt hlt
  rw [quotient_eq]
  unfold ofMicros
  dsimp only
  split
  · rw [units_neg (by omega), hmagnitude]
  · exact hmagnitude

/-- The word that is computed is that of the span. -/
theorem raw_ofMicros (h : Short us) : (ofMicros us).raw = spanWord (Int64.ofInt us) := by
  have hus : (Int64.ofInt us).toInt = us :=
    Int64.toInt_ofInt_of_le h.representable.1 h.representable.2
  -- the magnitude is converted without loss, and the sign is put back
  have hfixed : fixedWord (UInt64.ofNat us.natAbs) = UInt64.ofNat (fixedOfMicros us.natAbs) := by
    apply UInt64.toNat_inj.mp
    rw [(fixed_without_loss h.natAbs_lt).result,
      UInt64.toNat_ofNat_of_lt' (fixedOfMicros_lt h.natAbs_lt)]
  have hsign : Int64.ofInt us < 0 ↔ us < 0 := by
    rw [Int64.lt_iff_toInt_lt, hus]
    rfl
  unfold ofMicros spanWord magnitude
  simp only [hus, hfixed, hsign, UInt64.toInt64_ofNat']
  split <;> rfl

theorem made_without_loss (h : Short us) : MadeWithoutLoss us where
  magnitude := fixed_without_loss h.natAbs_lt
  signed := by
    have hword := (fixed_without_loss h.natAbs_lt).result
    rw [← UInt64.ofNat_toNat (x := fixedWord _), hword, UInt64.toInt64_ofNat',
      Int64.toInt_ofNat_of_lt h.fixedOfMicros_lt]
  result := by
    rw [← raw_ofMicros h]
    exact units_ofMicros h

theorem ofMicros_neg (us : Int) : ofMicros (-us) = -ofMicros us := by
  unfold ofMicros
  dsimp only
  rw [Int.natAbs_neg]
  rcases Int.lt_trichotomy us 0 with hneg | rfl | hpos
  · rw [if_neg (by omega), if_pos hneg]
    exact congrArg Interval.mk Int64.neg_neg.symm
  · rfl
  · rw [if_pos (by omega), if_neg (by omega)]

/-- The order of two short spans is kept. -/
theorem ofMicros_lt_ofMicros (h : Short us) (h' : Short us') (hlt : us < us') :
    ofMicros us < ofMicros us' := by
  apply Int64.lt_iff_toInt_lt.mpr
  show (ofMicros us).units < (ofMicros us').units
  rw [units_ofMicros h, units_ofMicros h', quotient_eq, quotient_eq]
  -- magnitudes grow away from zero
  split <;> split
  · next hneg hneg' =>
    have := fixedOfMicros_lt_fixedOfMicros (show us'.natAbs < us.natAbs by omega)
    omega
  · next hneg hpos' =>
    have := fixedOfMicros_lt_fixedOfMicros (show 0 < us.natAbs by omega)
    omega
  · omega
  · next hpos hpos' =>
    have := fixedOfMicros_lt_fixedOfMicros (show us.natAbs < us'.natAbs by omega)
    omega

/-- A span comes back as it was, unless it is positive and something was dropped. -/
theorem toMicros_ofMicros (h : Short us) :
    (ofMicros us).toMicros = if us ≤ 0 ∨ (15625 : Int) ∣ us then us else us - 1 := by
  rw [toMicros_eq, units_ofMicros h, quotient_eq]
  split
  · next hneg =>
    -- what the first division has added is less than a microsecond
    have hsplit := Nat.div_add_mod (unitsPerSecond * us.natAbs) microsPerSecond
    rw [if_pos (.inl (Int.le_of_lt hneg)), fixedOfMicros_eq]
    unfold unitsPerSecond microsPerSecond at *
    omega
  · next hpos =>
    obtain ⟨n, rfl⟩ : ∃ n : Nat, us = n := ⟨us.natAbs, by omega⟩
    have hback := congrArg (Nat.cast (R := Int)) (micros_fixedOfMicros n)
    rw [Int.natCast_ediv, Int.natCast_mul] at hback
    rw [Int.natAbs_natCast, hback]
    split <;> split <;> omega

end Short

/-- **A span never comes back longer than it was.** A span of less than 68 years becomes fixed point
without a bit lost, as the exact quotient rounded toward zero; its negative becomes the negative;
and longer spans become longer. It comes back as it was if it is not positive, or a multiple of
15625 microseconds, and one microsecond shorter otherwise. -/
theorem micros_never_overstated {us : Int} (h : Short us) :
    MadeWithoutLoss us ∧ (ofMicros us).raw = spanWord (Int64.ofInt us) ∧
      ofMicros (-us) = -ofMicros us ∧
      (∀ us', Short us' → us < us' → ofMicros us < ofMicros us') ∧
      (ofMicros us).ReadWithoutLoss ∧
      (ofMicros us).toMicros = (if us ≤ 0 ∨ (15625 : Int) ∣ us then us else us - 1) ∧
      (ofMicros us).toMicros ≤ us := by
  have hback := toMicros_ofMicros h
  refine ⟨made_without_loss h, raw_ofMicros h, ofMicros_neg us, ?_, read_without_loss _, hback, ?_⟩
  · intro us' h' hlt
    exact ofMicros_lt_ofMicros h h' hlt
  · rw [hback]
    split <;> omega

/-- A quarter of a second is kept, in both directions; of a single microsecond nothing is left, but
the microsecond before now is kept. -/
theorem quarter_second_kept :
    Short (-250000) ∧ Short (-1) ∧ Short 1 ∧ (ofMicros (-250000)).toMicros = -250000 ∧
      (ofMicros 1).toMicros = 0 ∧ ofMicros (-250000) < ofMicros (-1) := by
  have hquarter : Short (-250000) := by decide
  have hbefore : Short (-1) := by decide
  have hone : Short 1 := by decide
  obtain ⟨-, -, -, hlonger, -, hkept, -⟩ := micros_never_overstated hquarter
  obtain ⟨-, -, -, -, -, hdropped, -⟩ := micros_never_overstated hone
  exact ⟨hquarter, hbefore, hone, hkept, hdropped, hlonger (-1) hbefore (by decide)⟩

end Playout.Ntp.Interval
