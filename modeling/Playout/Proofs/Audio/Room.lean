import Playout.Proofs.Audio.Run

/-!
# The room in the ring

A pacer counts whole frames, so a frame of which only a part has been taken is room to it. What a
ring of `F` frames holds and what a write offers come to at most

    F * S + bytes of the frame that is begun

and `write_fits_iff` says when they come to no more than `F * S`. To an output that takes whole
frames (`write_fits_of_frames`) they always do. `splitter_overfilled` is a ring of one frame that
gets one and a half.
-/

namespace Playout.Pacer

open Playout.Action

variable {α : Type} {device : AudioDevice α} {release : Nat → Action α Unit}

/-- Bytes that were taken before the output came to the state `a`, and are not played then. -/
def inRing (S : Nat) (played : α → Nat) (before : List (AudioCall α)) (a : α) : Nat :=
  (takenIn before).length - S * played a

/-- A ring of `F` frames has room for what is offered to the output in the state `a`. -/
def Fits (F S : Nat) (played : α → Nat) (before : List (AudioCall α)) (a : α)
    (offered : List UInt8) : Prop :=
  inRing S played before a + offered.length ≤ F * S

/-- What has been played when a write comes is behind what was taken, by less than the positions
can tell. -/
def PlaysBehind (S : Nat) (played : α → Nat) (calls : List (AudioCall α)) : Prop :=
  ∀ before a offered answer after, calls = before ++ .write a offered answer :: after →
    played a ≤ (takenIn before).length / S ∧
      (takenIn before).length / S - played a < 2 ^ 32

/-- Positions that have wrapped around tell how far they are apart. -/
theorem toNat_ofNat_sub {m n : Nat} (hle : n ≤ m) (hnear : m - n < 2 ^ 32) :
    (UInt32.ofNat m - UInt32.ofNat n).toNat = m - n := by
  rw [UInt32.toNat_sub, UInt32.toNat_ofNat', UInt32.toNat_ofNat']
  omega

section Room

variable {F S : Nat} {played : α → Nat} {before : List (AudioCall α)} {a : α}

/-- The room that is seen is that of the ring, and of the bytes of a frame that is begun. -/
theorem inRing_add_roomAt (hcount : device.frameCount a = F)
    (hposition : device.position a = UInt32.ofNat (played a))
    (hplayed : played a ≤ (takenIn before).length / S)
    (hnear : (takenIn before).length / S - played a < 2 ^ 32)
    (hroom : roomAt device S before a ≠ 0) :
    inRing S played before a + roomAt device S before a =
      F * S + (takenIn before).length % S := by
  unfold roomAt at hroom ⊢
  rw [hcount, hposition, toNat_ofNat_sub hplayed hnear] at hroom ⊢
  unfold inRing
  -- counted in frames, with what is left of the bytes taken
  generalize htaken : (takenIn before).length = taken at *
  have hframes : taken = S * (taken / S) + taken % S := (Nat.div_add_mod taken S).symm
  have hflight : played a + (taken / S - played a) = taken / S := Nat.add_sub_cancel' hplayed
  have hlt : taken / S - played a < F := by
    by_contra hfull
    rw [Nat.sub_eq_zero_of_le (Nat.not_lt.mp hfull), Nat.zero_mul] at hroom
    exact hroom rfl
  have hring : taken - S * played a = S * (taken / S - played a) + taken % S := by
    rw [Nat.mul_sub, ← Nat.sub_add_comm (Nat.mul_le_mul_left S hplayed)]
    omega
  rw [hring, Nat.mul_comm S, Nat.add_right_comm, ← Nat.add_mul,
    Nat.add_sub_cancel' (Nat.le_of_lt hlt)]

/-- Until a `releaseAll`, each call may follow those before it. -/
theorem Tracked.eachDue {events : List (PacerEvent α)} {st : Pacer × Taped α}
    (h : Tracked device S events st) (hnone : .releaseAll ∉ events) :
    EachDue device S [] (outputsOf events) st.2.calls := by
  obtain ⟨earlier, gone, current, houtputs, -, hfirst, -, hsince⟩ := h
  obtain ⟨calls, hcalls, heach, -⟩ := hsince
  obtain ⟨rfl, rfl⟩ := hfirst hnone
  rw [houtputs, hcalls]
  exact heach

/-- A write that is due offers what fits, if no frame is begun or all of the buffer in hand fits. -/
theorem Due.fits_iff {outputs : List DecodedOutput} {offered : List UInt8}
    {answer : Except String Nat} (h : Due device S [] outputs before (.write a offered answer))
    (hcount : device.frameCount a = F) (hposition : device.position a = UInt32.ofNat (played a))
    (hplayed : played a ≤ (takenIn before).length / S)
    (hnear : (takenIn before).length / S - played a < 2 ^ 32) :
    (∃ rest, InHand outputs before rest ∧
      (Fits F S played before a offered ↔
        (takenIn before).length % S = 0 ∨ Fits F S played before a rest)) ∧
    inRing S played before a + offered.length ≤ F * S + (takenIn before).length % S := by
  obtain ⟨hroom, rest, hrest, hhand, rfl⟩ := h
  rw [List.nil_append] at hroom ⊢
  have hring := inRing_add_roomAt hcount hposition hplayed hnear hroom
  unfold Fits
  rw [List.length_take]
  constructor
  · refine ⟨rest, hhand, ?_⟩
    omega
  · omega

/-- On a ring of `F` frames of `S` bytes that plays no more than whole frames, a write offers no
more than there is room for exactly if no frame is begun, or the whole rest of the buffer in hand
fits. It is never more than the bytes of the begun frame too much. -/
theorem write_fits_iff (hS : 0 < S) (hsize : ∀ a, device.frameSize a = S)
    (hcount : ∀ a, device.frameCount a = F)
    (hposition : ∀ a, device.position a = UInt32.ofNat (played a))
    (haccepts : ∀ bytes a n, (device.write bytes a).1 = .ok n → n ≤ bytes.length)
    (release : Nat → Action α Unit) (start : α) (events : List (PacerEvent α))
    (hnone : .releaseAll ∉ events)
    (hplays : PlaysBehind S played (afterEvents device release start events).2.calls) :
    ∀ before a offered answer after, (afterEvents device release start events).2.calls =
        before ++ .write a offered answer :: after →
      (∃ rest, InHand (outputsOf events) before rest ∧
        (Fits F S played before a offered ↔
          (takenIn before).length % S = 0 ∨ Fits F S played before a rest)) ∧
      inRing S played before a + offered.length ≤ F * S + (takenIn before).length % S := by
  intro before a offered answer after hcalls
  have hdue := (tracked_afterEvents hS hsize haccepts release start events).eachDue hnone
  obtain ⟨hplayed, hnear⟩ := hplays before a offered answer after hcalls
  exact (hdue before _ after hcalls).fits_iff (hcount a) (hposition a) hplayed hnear

theorem dvd_takenIn {calls : List (AudioCall α)} (h : ∀ c ∈ calls, S ∣ c.taken.length) :
    S ∣ (takenIn calls).length := by
  induction calls with
  | nil => exact Nat.dvd_zero S
  | cons c calls ih =>
    obtain ⟨hc, hcalls⟩ := List.forall_mem_cons.mp h
    have hlength : (takenIn (c :: calls)).length = c.taken.length + (takenIn calls).length := by
      simp [takenIn]
    rw [hlength]
    exact Nat.dvd_add hc (ih hcalls)

/-- An output that takes whole frames is never offered more than it has room for. -/
theorem write_fits_of_frames (hS : 0 < S) (hsize : ∀ a, device.frameSize a = S)
    (hcount : ∀ a, device.frameCount a = F)
    (hposition : ∀ a, device.position a = UInt32.ofNat (played a))
    (haccepts : ∀ bytes a n, (device.write bytes a).1 = .ok n → n ≤ bytes.length)
    (release : Nat → Action α Unit) (start : α) (events : List (PacerEvent α))
    (hnone : .releaseAll ∉ events)
    (hplays : PlaysBehind S played (afterEvents device release start events).2.calls)
    (hframes : ∀ c ∈ (afterEvents device release start events).2.calls, S ∣ c.taken.length) :
    ∀ before a offered answer after, (afterEvents device release start events).2.calls =
      before ++ .write a offered answer :: after → Fits F S played before a offered := by
  intro before a offered answer after hcalls
  have hdue := (tracked_afterEvents hS hsize haccepts release start events).eachDue hnone
  obtain ⟨hplayed, hnear⟩ := hplays before a offered answer after hcalls
  obtain ⟨⟨rest, -, hfits⟩, -⟩ :=
    (hdue before _ after hcalls).fits_iff (hcount a) (hposition a) hplayed hnear
  refine hfits.mpr (Or.inl (Nat.mod_eq_zero_of_dvd (dvd_takenIn ?_)))
  intro c hc
  exact hframes c (hcalls ▸ List.mem_append_left _ hc)

end Room

/-! ## A frame in two parts -/

/-- A ring of one frame of four bytes that plays nothing, and takes half a frame first. The state
counts its writes. -/
def splitter : AudioDevice Nat where
  frameCount _ := 1
  frameSize _ := 4
  sampleRate _ := 48000
  position _ := 0
  write bytes writes := (.ok (if writes = 0 then min 2 bytes.length else bytes.length), writes + 1)
  stop writes := writes

/-- Two frames, and a push for each of them. -/
def splitEvents : List (PacerEvent Nat) :=
  [.enqueue ⟨0, 0, [1, 2, 3, 4, 5, 6, 7, 8]⟩, .push, .push]

theorem splitter_calls : (afterEvents splitter (fun _ => pure ()) 0 splitEvents).2.calls =
    [.write 0 [1, 2, 3, 4] (.ok 2), .write 1 [3, 4, 5, 6] (.ok 4)] := rfl

theorem splitter_accepts (bytes : List UInt8) (writes n : Nat)
    (h : (splitter.write bytes writes).1 = .ok n) : n ≤ bytes.length := by
  have hn : (if writes = 0 then min 2 bytes.length else bytes.length) = n := Except.ok.inj h
  split at hn <;> omega

theorem splitter_playsBehind : PlaysBehind 4 (fun _ => 0)
    (afterEvents splitter (fun _ => pure ()) 0 splitEvents).2.calls := by
  intro before a offered answer after hcalls
  have htaken := congrArg (fun calls => (takenIn calls).length) hcalls
  have hsix :
      (takenIn (afterEvents splitter (fun _ => pure ()) 0 splitEvents).2.calls).length = 6 := rfl
  simp only [hsix, takenIn_append, List.length_append] at htaken
  refine ⟨Nat.zero_le _, ?_⟩
  show (takenIn before).length / 4 - 0 < 2 ^ 32
  omega

/-- The first write fits: no frame is begun then. -/
theorem splitter_first_fits : Fits 1 4 (fun _ => 0) [] 0 ([1, 2, 3, 4] : List UInt8) := by
  have hsize : ∀ a, splitter.frameSize a = 4 := fun _ => rfl
  have hcount : ∀ a, splitter.frameCount a = 1 := fun _ => rfl
  obtain ⟨⟨rest, -, hfits⟩, -⟩ := write_fits_iff (by decide) hsize hcount (fun _ => rfl)
    splitter_accepts (fun _ => pure ()) 0 splitEvents (by simp [splitEvents])
    splitter_playsBehind [] 0 [1, 2, 3, 4] (.ok 2) _ splitter_calls
  exact hfits.mpr (Or.inl rfl)

/-- Half a frame is in the ring when a whole one is offered, and all of it is taken. -/
theorem splitter_overfilled :
    (∀ bytes writes n, (splitter.write bytes writes).1 = .ok n → n ≤ bytes.length) ∧
    PlaysBehind 4 (fun _ => 0)
      (afterEvents splitter (fun _ => pure ()) 0 splitEvents).2.calls ∧
    (∃ before a offered answer after,
      (afterEvents splitter (fun _ => pure ()) 0 splitEvents).2.calls =
        before ++ .write a offered answer :: after ∧ ¬ Fits 1 4 (fun _ => 0) before a offered) ∧
    1 * 4 < (takenIn (afterEvents splitter (fun _ => pure ()) 0 splitEvents).2.calls).length := by
  refine ⟨splitter_accepts, splitter_playsBehind, ?_, by decide⟩
  refine ⟨[.write 0 [1, 2, 3, 4] (.ok 2)], 1, [3, 4, 5, 6], .ok 4, [], splitter_calls, ?_⟩
  unfold Fits
  decide

end Playout.Pacer
