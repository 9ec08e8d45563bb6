import Playout.Proofs.Ntp.Units

/-!
# Microseconds in fixed point and back

A number of microseconds becomes fixed point by rounding down, and fixed point becomes microseconds
by rounding down. Each way is one division, whatever the seconds are:

    fixedOfMicros_eq : fixedOfMicros us = 2 ^ 32 * us / 10 ^ 6
    toMicros_eq      : t.toMicros = t.raw * 10 ^ 6 / 2 ^ 32

What the first division drops is less than a microsecond, so that the second gives back the number
or the one before it. It gives back the number exactly if nothing was dropped, that is, if the
number is a multiple of 15625 microseconds, the 64th part of a second: `10 ^ 6` is `2 ^ 6 * 15625`.

The conversions are done on words of 64 bits. `fixedWord` and `microsWord` are the conversions with
operations that wrap around, and agree with the others.
-/

namespace Playout.Ntp

theorem unixOffset_eq : unixOffset = 2208988800000000 := rfl

/-! ## Rounding -/

/-- The seconds and the fraction are one quotient. -/
theorem fixedOfMicros_eq (us : Nat) :
    fixedOfMicros us = unitsPerSecond * us / microsPerSecond := by
  unfold fixedOfMicros unitsPerSecond microsPerSecond
  omega

theorem fixedOfMicros_lt_fixedOfMicros {us us' : Nat} (h : us < us') :
    fixedOfMicros us < fixedOfMicros us' := by
  rw [fixedOfMicros_eq, fixedOfMicros_eq]
  unfold unitsPerSecond microsPerSecond
  omega

/-- As long as 32 bits hold the seconds, a word holds the fixed point. -/
theorem fixedOfMicros_lt {us : Nat} (h : us < unitsPerSecond * microsPerSecond) :
    fixedOfMicros us < 2 ^ 64 := by
  rw [fixedOfMicros_eq]
  unfold unitsPerSecond microsPerSecond at *
  omega

/-- What becoming fixed point drops is nothing exactly for the multiples of 15625. -/
theorem dropped_eq_zero_iff (us : Nat) :
    unitsPerSecond * us % microsPerSecond = 0 ↔ 15625 ∣ us := by
  unfold unitsPerSecond microsPerSecond
  omega

/-- Rounding down twice gives back the number, or the one before it if anything was dropped. -/
theorem micros_fixedOfMicros (us : Nat) :
    fixedOfMicros us * microsPerSecond / unitsPerSecond = if 15625 ∣ us then us else us - 1 := by
  have hsplit := Nat.div_add_mod (unitsPerSecond * us) microsPerSecond
  have hdropped := dropped_eq_zero_iff us
  have hlt : unitsPerSecond * us % microsPerSecond < microsPerSecond :=
    Nat.mod_lt _ (by decide)
  rw [fixedOfMicros_eq]
  -- with quotient and remainder as numbers of their own, what is left is linear
  generalize unitsPerSecond * us / microsPerSecond = fixed at *
  generalize unitsPerSecond * us % microsPerSecond = dropped at *
  unfold unitsPerSecond microsPerSecond at *
  split
  · omega
  · omega

/-! ## Words -/

section Words

variable (us raw : UInt64)

/-- The whole seconds, moved to the upper half of a word. -/
def shiftedSeconds : UInt64 := (us / 1000000) <<< 32

/-- The rest of a second in units, times a million. -/
def scaledRest : UInt64 := (1 : UInt64) <<< 32 * (us % 1000000)

/-- `fixedOfMicros` with operations on words. -/
def fixedWord : UInt64 := shiftedSeconds us ||| scaledRest us / 1000000

/-- The seconds in microseconds. -/
def scaledSeconds : Int64 := (raw >>> 32).toInt64 * 1000000

/-- The fraction of a second in microseconds, times `2 ^ 32`. -/
def scaledFraction : UInt64 := (raw &&& 0xFFFFFFFF) * 1000000

/-- `Timestamp.toMicros` with operations on words. -/
def microsWord : Int64 := scaledSeconds raw + (scaledFraction raw >>> 32).toInt64

/-- `Timestamp.toUnixMicros` with operations on words. -/
def unixMicrosWord : Int64 := microsWord raw - Int64.ofInt unixOffset

end Words

theorem toNat_million : (1000000 : UInt64).toNat = microsPerSecond := rfl

/-- No bit is lost on the way to fixed point: the shift and the product are what they are for
numbers, and so is the result. -/
structure FixedWithoutLoss (us : Nat) : Prop where
  shift : (shiftedSeconds (UInt64.ofNat us)).toNat = us / microsPerSecond * unitsPerSecond
  product : (scaledRest (UInt64.ofNat us)).toNat = unitsPerSecond * (us % microsPerSecond)
  result : (fixedWord (UInt64.ofNat us)).toNat = fixedOfMicros us

/-- Below `2 ^ 32` seconds nothing is lost. -/
theorem fixed_without_loss {us : Nat} (h : us < unitsPerSecond * microsPerSecond) :
    FixedWithoutLoss us := by
  have hword : (UInt64.ofNat us).toNat = us := by
    rw [UInt64.toNat_ofNat']
    unfold unitsPerSecond microsPerSecond at h
    omega
  have hshift : (shiftedSeconds (UInt64.ofNat us)).toNat =
      us / microsPerSecond * unitsPerSecond := by
    rw [shiftedSeconds, UInt64.toNat_shiftLeft, UInt64.toNat_div, hword, toNat_million,
      show (32 : UInt64).toNat % 64 = 32 from rfl, Nat.shiftLeft_eq]
    unfold unitsPerSecond microsPerSecond at *
    omega
  have hproduct : (scaledRest (UInt64.ofNat us)).toNat =
      unitsPerSecond * (us % microsPerSecond) := by
    rw [scaledRest, UInt64.toNat_mul, UInt64.toNat_mod, hword, toNat_million,
      show ((1 : UInt64) <<< 32).toNat = unitsPerSecond from rfl]
    unfold unitsPerSecond microsPerSecond
    omega
  refine ⟨hshift, hproduct, ?_⟩
  have hfraction : unitsPerSecond * (us % microsPerSecond) / microsPerSecond < 2 ^ 32 := by
    unfold unitsPerSecond microsPerSecond
    omega
  -- the fraction takes the bits that the shift has left free
  have hbits := Nat.shiftLeft_add_eq_or_of_lt hfraction (us / microsPerSecond)
  rw [Nat.shiftLeft_eq] at hbits
  rw [fixedWord, UInt64.toNat_or, hshift, UInt64.toNat_div, hproduct, toNat_million]
  exact hbits.symm

namespace Timestamp

/-- Seconds and fraction are converted apart, which is one division of the whole. -/
theorem toMicros_eq (t : Timestamp) :
    t.toMicros = t.raw.toNat * microsPerSecond / unitsPerSecond := by
  unfold toMicros seconds fraction unitsPerSecond microsPerSecond
  omega

theorem toMicros_lt (t : Timestamp) : t.toMicros < 2 ^ 32 * microsPerSecond := by
  have hraw := t.raw.toNat_lt
  rw [toMicros_eq]
  unfold unitsPerSecond microsPerSecond
  omega

theorem toUnixMicros_le_toUnixMicros {t t' : Timestamp} (h : t ≤ t') :
    t.toUnixMicros ≤ t'.toUnixMicros := by
  have hraw : t.raw.toNat ≤ t'.raw.toNat := UInt64.le_iff_toNat_le.mp h
  unfold toUnixMicros
  rw [toMicros_eq, toMicros_eq]
  unfold unitsPerSecond microsPerSecond
  omega

/-- No bit is lost on the way to microseconds: the products are what they are for numbers, and so
are the results. -/
structure ReadWithoutLoss (t : Timestamp) : Prop where
  seconds : (scaledSeconds t.raw).toInt = t.seconds * microsPerSecond
  fraction : (scaledFraction t.raw).toNat = t.fraction * microsPerSecond
  sinceEpoch : (microsWord t.raw).toInt = t.toMicros
  sinceUnix : (unixMicrosWord t.raw).toInt = t.toUnixMicros

theorem toInt64_eq (w : UInt64) : w.toInt64 = Int64.ofInt w.toNat := by
  conv => lhs; rw [← UInt64.ofNat_toNat (x := w), UInt64.toInt64_ofNat']
  rfl

/-- From no moment anything is lost. -/
theorem read_without_loss (t : Timestamp) : t.ReadWithoutLoss := by
  have hraw := t.raw.toNat_lt
  -- words are followed through the integers, and no step leaves the range of one
  have hseconds : scaledSeconds t.raw = Int64.ofInt (t.seconds * microsPerSecond) := by
    have hhigh : (t.raw >>> 32).toNat = t.seconds := by
      rw [UInt64.toNat_shiftRight, show (32 : UInt64).toNat % 64 = 32 from rfl,
        Nat.shiftRight_eq_div_pow]
      rfl
    rw [scaledSeconds, toInt64_eq, hhigh, Int64.ofInt_mul]
    rfl
  have hfraction : (scaledFraction t.raw).toNat = t.fraction * microsPerSecond := by
    have hlow : (t.raw &&& 0xFFFFFFFF).toNat = t.fraction := by
      rw [UInt64.toNat_and]
      exact Nat.and_two_pow_sub_one_eq_mod t.raw.toNat 32
    rw [scaledFraction, UInt64.toNat_mul, hlow, toNat_million]
    unfold fraction unitsPerSecond microsPerSecond
    omega
  have hmicros : microsWord t.raw = Int64.ofInt t.toMicros := by
    have hunits : (scaledFraction t.raw >>> 32).toNat =
        t.fraction * microsPerSecond / unitsPerSecond := by
      rw [UInt64.toNat_shiftRight, show (32 : UInt64).toNat % 64 = 32 from rfl,
        Nat.shiftRight_eq_div_pow, hfraction]
      rfl
    rw [microsWord, hseconds, toInt64_eq, hunits, ← Int64.ofInt_add]
    rfl
  have hunix : unixMicrosWord t.raw = Int64.ofInt t.toUnixMicros := by
    rw [unixMicrosWord, hmicros, ← Int64.ofInt_sub]
    rfl
  have hoffset := unixOffset_eq
  have hlt := t.toMicros_lt
  unfold microsPerSecond at hlt
  refine ⟨?_, hfraction, ?_, ?_⟩
  · rw [hseconds, Int64.toInt_ofInt_of_le]
    · unfold seconds unitsPerSecond microsPerSecond
      omega
    · unfold seconds unitsPerSecond microsPerSecond
      omega
  · rw [hmicros]
    exact Int64.toInt_ofInt_of_le (by omega) (by omega)
  · unfold toUnixMicros at hunix ⊢
    rw [hunix]
    exact Int64.toInt_ofInt_of_le (by omega) (by omega)

/-! ## Moments of the first era -/

/-- A moment from 1900 until 2036, when the count of seconds starts over. -/
def InFirstEra (us : Int) : Prop :=
  -unixOffset ≤ us ∧ us < 2 ^ 32 * microsPerSecond - unixOffset

instance (us : Int) : Decidable (InFirstEra us) := inferInstanceAs (Decidable (_ ∧ _))

section FirstEra

variable {us us' : Int}

/-- The moments of the era are those whose seconds 32 bits hold. -/
theorem InFirstEra.lt (h : InFirstEra us) :
    (us + unixOffset).toNat < unitsPerSecond * microsPerSecond := by
  have hoffset := unixOffset_eq
  unfold InFirstEra at h
  unfold unitsPerSecond microsPerSecond at *
  omega

/-- Within the era no moment is cut off. -/
theorem raw_ofUnixMicros (h : InFirstEra us) :
    (ofUnixMicros us).raw.toNat = fixedOfMicros (us + unixOffset).toNat := by
  have hwhole : max 0 (min (us + unixOffset) Int64.maxValue.toInt) = us + unixOffset := by
    have hmax : Int64.maxValue.toInt = 2 ^ 63 - 1 := rfl
    have hlt := h.lt
    unfold InFirstEra at h
    unfold unitsPerSecond microsPerSecond at hlt
    omega
  unfold ofUnixMicros
  dsimp only
  rw [hwhole, UInt64.toNat_ofNat_of_lt' (fixedOfMicros_lt h.lt)]

theorem toUnixMicros_ofUnixMicros (h : InFirstEra us) :
    (ofUnixMicros us).toUnixMicros = if (15625 : Int) ∣ us then us else us - 1 := by
  have hoffset := unixOffset_eq
  have hmicros : (ofUnixMicros us).toMicros = if 15625 ∣ (us + unixOffset).toNat
      then (us + unixOffset).toNat else (us + unixOffset).toNat - 1 := by
    rw [toMicros_eq, raw_ofUnixMicros h, micros_fixedOfMicros]
  unfold InFirstEra at h
  unfold toUnixMicros
  rw [hmicros]
  split <;> split <;> omega

/-- The order of two moments is kept. -/
theorem ofUnixMicros_lt_ofUnixMicros (h : InFirstEra us) (h' : InFirstEra us') (hlt : us < us') :
    ofUnixMicros us < ofUnixMicros us' := by
  apply UInt64.lt_iff_toNat_lt.mpr
  rw [raw_ofUnixMicros h, raw_ofUnixMicros h']
  apply fixedOfMicros_lt_fixedOfMicros
  unfold InFirstEra at h h'
  omega

end FirstEra

/-- **Fixed point keeps a microsecond.** A moment of the first era comes back as it was or one
microsecond earlier, and as it was exactly if it is a multiple of 15625 microseconds. Later moments
become later timestamps, and later timestamps are never read as earlier moments. On both ways no
product and no shift loses a bit: the operations on words give what those on numbers give. -/
theorem unixMicros_kept_to_a_microsecond :
    (∀ us, InFirstEra us →
      ((ofUnixMicros us).toUnixMicros = us ∨ (ofUnixMicros us).toUnixMicros = us - 1) ∧
      ((ofUnixMicros us).toUnixMicros = us ↔ (15625 : Int) ∣ us)) ∧
    (∀ us us', InFirstEra us → InFirstEra us' → us < us' → ofUnixMicros us < ofUnixMicros us') ∧
    (∀ t t' : Timestamp, t ≤ t' → t.toUnixMicros ≤ t'.toUnixMicros) ∧
    (∀ us, InFirstEra us → FixedWithoutLoss (us + unixOffset).toNat ∧
      (ofUnixMicros us).raw = fixedWord (UInt64.ofNat (us + unixOffset).toNat)) ∧
    ∀ t : Timestamp, t.ReadWithoutLoss := by
  refine ⟨?_, ?_, ?_, ?_, read_without_loss⟩
  · intro us h
    rw [toUnixMicros_ofUnixMicros h]
    split
    · next hmultiple => exact ⟨Or.inl rfl, iff_of_true rfl hmultiple⟩
    · next hother => exact ⟨Or.inr rfl, iff_of_false (by omega) hother⟩
  · intro us us' h h' hlt
    exact ofUnixMicros_lt_ofUnixMicros h h' hlt
  · intro t t' h
    exact toUnixMicros_le_toUnixMicros h
  -- the word that is computed has the same number as the fixed point
  · intro us h
    have hfixed := fixed_without_loss h.lt
    refine ⟨hfixed, UInt64.toNat_inj.mp ?_⟩
    rw [raw_ofUnixMicros h, hfixed.result]

/-- The 64th part of a second is kept, a single microsecond is not. -/
theorem unixMicros_kept_in_1970 :
    InFirstEra 1 ∧ InFirstEra 15625 ∧ (ofUnixMicros 1).toUnixMicros = 0 ∧
      (ofUnixMicros 15625).toUnixMicros = 15625 ∧ ofUnixMicros 1 < ofUnixMicros 15625 := by
  have hone : InFirstEra 1 := by decide
  have hpart : InFirstEra 15625 := by decide
  obtain ⟨hreturn, hincreasing, -⟩ := unixMicros_kept_to_a_microsecond
  obtain ⟨hnear, hexact⟩ := hreturn 1 hone
  have hlost : (ofUnixMicros 1).toUnixMicros ≠ 1 := fun heq => absurd (hexact.mp heq) (by decide)
  exact ⟨hone, hpart, hnear.resolve_left hlost, (hreturn 15625 hpart).2.mpr (by decide),
    hincreasing 1 15625 hone hpart (by decide)⟩

end Timestamp

end Playout.Ntp
