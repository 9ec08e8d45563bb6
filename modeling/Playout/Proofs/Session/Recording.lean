import Playout.Proofs.Decode.Ownership
import Playout.Session.Platform

/-!
# What the devices were told

`P.recorded` is the platform `P` with a record of every call that can be told from outside, the
newest first. The decoders of a track are told apart by a serial number: a call goes to the
decoder that was created last, and its number is how many were created until then.

`TornDown` is what a record should say in the end. `Ledger` is what it says on the way there.
-/

namespace Playout

@[simp] theorem PerTrack.get_both {α : Type} (a : α) (t : Track) : (both a).get t = a := by
  cases t <;> rfl

/-- A call of a device, and how it ended. -/
inductive DeviceCall where
  | createDecoder (t : Track) (created : Bool)
  | decoder (t : Track) (serial : Nat) (call : DecoderCall) (refusal : Option DecoderError)
  | createAudio (created : Bool)
  | writeAudio (bytes : List UInt8)
  | stopAudio
  | stopSurface
deriving DecidableEq

/-- The decoders created for a track. -/
def made (t : Track) (calls : List DeviceCall) : Nat := calls.count (.createDecoder t true)

/-- Devices with a record of their calls, the newest first. -/
structure Recorded (σ : Type) where
  devices : σ
  calls : List DeviceCall := []

/-- The error of an answer. -/
def refusal? : Except DecoderError Unit → Option DecoderError
  | .ok () => none
  | .error e => some e

/-- An answer that is not good has an error. -/
theorem refusal?_ne_none {answer : Except DecoderError Unit} (h : answer ≠ .ok ()) :
    refusal? answer ≠ none := by
  cases answer with
  | ok x => exact absurd rfl h
  | error e => simp [refusal?]

namespace Platform

variable {σ : Type}

/-- The same platform with a record. -/
def recorded (P : Platform σ) : Platform (Recorded σ) where
  createDecoder t format r :=
    let (answer, d) := P.createDecoder t format r.devices
    (answer, ⟨d, .createDecoder t answer.isOk :: r.calls⟩)
  decoder t c r :=
    let ((answer, posted), d) := P.decoder t c r.devices
    ((answer, posted), ⟨d, .decoder t (made t r.calls) c (refusal? answer) :: r.calls⟩)
  inputSlots t r := P.inputSlots t r.devices
  outputSlots t r := P.outputSlots t r.devices
  createAudio format r :=
    let (answer, d) := P.createAudio format r.devices
    (answer, ⟨d, .createAudio answer.isOk :: r.calls⟩)
  audio := {
    frameCount := fun r => P.audio.frameCount r.devices
    frameSize := fun r => P.audio.frameSize r.devices
    sampleRate := fun r => P.audio.sampleRate r.devices
    position := fun r => P.audio.position r.devices
    write := fun bytes r =>
      let (taken, d) := P.audio.write bytes r.devices
      (taken, ⟨d, .writeAudio bytes :: r.calls⟩)
    stop := fun r => ⟨P.audio.stop r.devices, .stopAudio :: r.calls⟩ }
  stopSurface r := ⟨P.stopSurface r.devices, .stopSurface :: r.calls⟩

end Platform

/-! ## What a record says -/

/-- How often a decoder was told something, whatever it answered. -/
def told (t : Track) (serial : Nat) (c : DecoderCall) (calls : List DeviceCall) : Nat :=
  calls.countP fun
    | .decoder t' serial' c' _ => t' = t && serial' = serial && c' = c
    | _ => false

/-- A decoder has started. -/
def Started (t : Track) (serial : Nat) (calls : List DeviceCall) : Prop :=
  .decoder t serial .start none ∈ calls

/-- The last call was one that a decoder refused. -/
def LastRefused (calls : List DeviceCall) : Prop :=
  ∃ t serial c e, calls.head? = some (.decoder t serial c (some e))

/-- Every decoder that started was stopped and released once, the audio output was stopped once
if there is one, and so was the surface. -/
def TornDown (calls : List DeviceCall) : Prop :=
  (∀ t serial, Started t serial calls →
    told t serial .stop calls = 1 ∧ told t serial .release calls = 1) ∧
  (.createAudio true ∈ calls → calls.count .stopAudio = 1) ∧
  calls.count .stopSurface = 1

/-- Calls after which nothing more is there to be stopped, and nothing less. -/
def DeviceCall.Quiet : DeviceCall → Prop
  | .createDecoder _ created => created = false
  | .decoder _ _ .start refusal => refusal ≠ none
  | .decoder _ _ .stop _ | .decoder _ _ .release _ => False
  | .decoder .. | .writeAudio _ => True
  | .createAudio _ | .stopAudio | .stopSurface => False

/-- The decoder that was created last has not started. -/
def Unstarted (t : Track) (calls : List DeviceCall) : Prop :=
  ∀ serial, Started t serial calls → serial < made t calls

/-- A record before the outputs are stopped: `configured` says which tracks are set up, and
`done` which of their decoders have been stopped and released. A decoder that has started is
that of a track, unless the audio output could not be created and so it was left behind. -/
structure Ledger (configured done : PerTrack Bool) (calls : List DeviceCall) : Prop where
  surface : calls.count .stopSurface = 0
  audio : calls.count .stopAudio = 0
  ended : ∀ t serial c, c = .stop ∨ c = .release → told t serial c calls =
    if configured.get t = true ∧ done.get t = true ∧ serial = made t calls then 1 else 0
  serials : ∀ t serial, Started t serial calls → serial ≤ made t calls
  current : ∀ t serial, Started t serial calls →
    configured.get t = true ∧ serial = made t calls ∨ .createAudio false ∈ calls
  orphan : .createAudio false ∈ calls →
    ∃ serial, Started .audio serial calls ∧
      ¬ (configured.get .audio = true ∧ serial = made .audio calls)
  output : .createAudio true ∈ calls → configured.get .audio = true

/-! ## One more call -/

section Cons

variable {t t' : Track} {serial serial' : Nat} {c : DeviceCall} {calls : List DeviceCall}

@[simp] theorem made_created :
    made t (.createDecoder t true :: calls) = made t calls + 1 := List.count_cons_self

/-- Only a decoder that is created counts as made. -/
theorem made_cons_of_ne (h : c ≠ .createDecoder t true) : made t (c :: calls) = made t calls :=
  List.count_cons_of_ne h

@[simp] theorem made_decoder {c : DecoderCall} {refusal : Option DecoderError} :
    made t (.decoder t' serial c refusal :: calls) = made t calls := made_cons_of_ne (by simp)

@[simp] theorem made_createAudio {created : Bool} :
    made t (.createAudio created :: calls) = made t calls := made_cons_of_ne (by simp)

/-- A decoder has started when it was told to start and did not refuse. -/
@[simp] theorem started_cons :
    Started t serial (c :: calls) ↔ c = .decoder t serial .start none ∨ Started t serial calls := by
  simp only [Started, List.mem_cons, eq_comm]

/-- A call to a decoder is one of those that were told to it. -/
@[simp] theorem told_decoder {c' c : DecoderCall} {refusal : Option DecoderError} :
    told t serial c (.decoder t' serial' c' refusal :: calls) =
      told t serial c calls + if t' = t ∧ serial' = serial ∧ c' = c then 1 else 0 := by
  simp [told, List.countP_cons, and_assoc]

@[simp] theorem told_createDecoder {c : DecoderCall} {created : Bool} :
    told t serial c (.createDecoder t' created :: calls) = told t serial c calls := rfl

@[simp] theorem told_createAudio {c : DecoderCall} {created : Bool} :
    told t serial c (.createAudio created :: calls) = told t serial c calls := rfl

namespace DeviceCall.Quiet

variable (hc : c.Quiet)
include hc

/-- A quiet call makes no decoder. -/
theorem made (t : Track) : made t (c :: calls) = Playout.made t calls :=
  made_cons_of_ne fun h => by simp [h, Quiet] at hc

/-- A quiet call starts no decoder. -/
theorem started : Started t serial (c :: calls) ↔ Started t serial calls := by
  rw [started_cons]
  refine or_iff_right fun h => ?_
  simp [h, Quiet] at hc

/-- A quiet call stops and releases no decoder. -/
theorem told {c' : DecoderCall} (h : c' = .stop ∨ c' = .release) :
    told t serial c' (c :: calls) = Playout.told t serial c' calls := by
  cases c with
  | decoder t' serial' c'' refusal =>
    rw [told_decoder, if_neg, Nat.add_zero]
    rintro ⟨-, -, rfl⟩
    rcases h with rfl | rfl <;> exact hc
  | _ => rfl

/-- A quiet call is none of those that matter. -/
theorem mem {c' : DeviceCall} (h : ¬ c'.Quiet) : c' ∈ c :: calls ↔ c' ∈ calls :=
  List.mem_cons.trans (or_iff_right fun heq => h (by rw [heq]; exact hc))

theorem count {c' : DeviceCall} (h : ¬ c'.Quiet) : (c :: calls).count c' = calls.count c' :=
  List.count_cons_of_ne fun heq => h (by rw [← heq]; exact hc)

end DeviceCall.Quiet

/-- A quiet call leaves a decoder unstarted. -/
theorem Unstarted.quiet (h : Unstarted t calls) (hc : c.Quiet) : Unstarted t (c :: calls) :=
  fun serial hs => by
    rw [hc.made]
    exact h serial (hc.started.mp hs)

end Cons

namespace Ledger

variable {configured done : PerTrack Bool} {calls : List DeviceCall}

/-- Before the first call there is nothing to be stopped. -/
theorem nil : Ledger (.both false) (.both false) [] := by
  constructor <;> simp [told, Started]

/-- A quiet call leaves the ledger as it is. -/
theorem quiet (h : Ledger configured done calls) {c : DeviceCall} (hc : c.Quiet) :
    Ledger configured done (c :: calls) where
  surface := (hc.count id).trans h.surface
  audio := (hc.count id).trans h.audio
  -- no count of the ledger is about a quiet call
  ended t serial c' hc' := by rw [hc.told hc', hc.made, h.ended t serial c' hc']
  serials t serial hs := by rw [hc.made]; exact h.serials t serial (hc.started.mp hs)
  current t serial hs := by
    rw [hc.made, hc.mem id]
    exact h.current t serial (hc.started.mp hs)
  orphan ho := by
    obtain ⟨serial, hs, hother⟩ := h.orphan ((hc.mem id).mp ho)
    exact ⟨serial, hc.started.mpr hs, by rwa [hc.made]⟩
  output ho := h.output ((hc.mem id).mp ho)

/-- A decoder is created for a track that is not set up. -/
theorem created (h : Ledger configured done calls) {t : Track} (ht : configured.get t = false) :
    Ledger configured done (.createDecoder t true :: calls) ∧
      Unstarted t (.createDecoder t true :: calls) := by
  -- a track that is set up is another one, and its decoder stays the last of it
  have hmade {u : Track} (hu : configured.get u = true) :
      made u (.createDecoder t true :: calls) = made u calls :=
    made_cons_of_ne fun heq => by simp_all
  refine ⟨⟨h.surface, h.audio, fun u serial c hc => ?_, fun u serial hs => ?_,
    fun u serial hs => ?_, fun ho => ?_, fun ho => h.output (by simpa using ho)⟩,
    fun serial hs => ?_⟩
  -- a track that is set up has the decoder that it had, and the other one had none to be ended
  · rw [told_createDecoder, h.ended u serial c hc]
    cases hu : configured.get u with
    | false => simp
    | true => rw [hmade hu]
  · exact Nat.le_trans (h.serials u serial (by simpa using hs)) List.count_le_count_cons
  · rcases h.current u serial (by simpa using hs) with ⟨hu, heq⟩ | ho
    · exact Or.inl ⟨hu, by rw [hmade hu]; exact heq⟩
    · exact Or.inr (List.mem_cons_of_mem _ ho)
  · obtain ⟨serial, hs, hother⟩ := h.orphan (by simpa using ho)
    refine ⟨serial, by simpa using hs, fun hcur => hother ⟨hcur.1, ?_⟩⟩
    rw [← hmade hcur.1]
    exact hcur.2
  · rw [made_created]
    exact Nat.lt_succ_of_le (h.serials t serial (by simpa using hs))

/-- The decoder that was created last starts: its track counts as set up. -/
theorem started (h : Ledger configured (.both false) calls) {t : Track}
    (ht : configured.get t = false) (hfresh : Unstarted t calls) :
    Ledger (configured.set t true) (.both false)
      (.decoder t (made t calls) .start none :: calls) := by
  have hset {u : Track} (hu : configured.get u = true) : (configured.set t true).get u = true := by
    cases t <;> cases u <;> first | rfl | exact hu
  refine ⟨by simpa using h.surface, by simpa using h.audio, fun u serial c hc => ?_,
    fun u serial hs => ?_, fun u serial hs => ?_, fun ho => ?_,
    fun ho => hset (h.output (by simpa using ho))⟩
  -- a start is neither a stop nor a release
  · rw [told_decoder, h.ended u serial c hc]
    rcases hc with rfl | rfl <;> simp
  · rw [made_decoder]
    rcases started_cons.mp hs with heq | hs
    · cases heq
      exact Nat.le_refl _
    · exact h.serials u serial hs
  · rw [made_decoder]
    rcases started_cons.mp hs with heq | hs
    · cases heq
      exact Or.inl ⟨by simp, rfl⟩
    · rcases h.current u serial hs with ⟨hu, heq⟩ | ho
      · exact Or.inl ⟨hset hu, heq⟩
      · exact Or.inr (List.mem_cons_of_mem _ ho)
  · obtain ⟨serial, hs, hother⟩ := h.orphan (by simpa using ho)
    refine ⟨serial, started_cons.mpr (Or.inr hs), fun hcur => ?_⟩
    -- what was left behind on the audio track is older than the decoder that starts
    rw [made_decoder] at hcur
    cases t with
    | video => exact hother hcur
    | audio => exact absurd hcur.2 (Nat.ne_of_lt (hfresh serial hs))

/-- The audio output is created for the audio track. -/
theorem output_created (h : Ledger configured done calls) (haudio : configured.get .audio = true) :
    Ledger configured done (.createAudio true :: calls) where
  surface := by simpa using h.surface
  audio := by simpa using h.audio
  ended := by simpa using h.ended
  serials := by simpa using h.serials
  current := by simpa using h.current
  orphan := by simpa using h.orphan
  output _ := haudio

/-- The audio output cannot be created, and the decoder that has started is left behind. -/
theorem output_refused (h : Ledger (configured.set .audio true) (.both false) calls)
    (haudio : configured.get .audio = false) (hstarted : Started .audio (made .audio calls) calls)
    (houtput : .createAudio true ∉ calls) :
    Ledger configured (.both false) (.createAudio false :: calls) where
  surface := by simpa using h.surface
  audio := by simpa using h.audio
  ended := by simpa using h.ended
  serials := by simpa using h.serials
  current := by simp
  orphan _ := ⟨made .audio calls, by simpa using hstarted, by simp [haudio]⟩
  output ho := absurd (by simpa using ho) houtput

/-- The decoder of a track is stopped and released. -/
theorem ended_track (h : Ledger configured done calls) {t : Track} (ht : configured.get t = true)
    (hdone : done.get t = false) (refusal refusal' : Option DecoderError) :
    Ledger configured (done.set t true) (.decoder t (made t calls) .release refusal' ::
      .decoder t (made t calls) .stop refusal :: calls) where
  surface := by simpa using h.surface
  audio := by simpa using h.audio
  ended u serial c hc := by
    have hended := h.ended u serial c hc
    -- of this track the last decoder gets its stop and its release, and the other track gets none
    by_cases hu : u = t
    · subst hu
      rcases hc with rfl | rfl <;> simp [hended, ht, hdone, eq_comm]
    · simp [hended, done.get_set_of_ne hu, Ne.symm hu]
  serials := by simpa using h.serials
  current := by simpa using h.current
  orphan := by simpa using h.orphan
  output := by simpa using h.output

/-- A track that is not set up has no decoder to be stopped. -/
theorem ended_unset (h : Ledger configured done calls) {t : Track}
    (ht : configured.get t = false) : Ledger configured (done.set t true) calls :=
  { h with
    ended := fun u serial c hc => by
      by_cases hu : u = t
      · subst hu
        simp [h.ended u serial c hc, ht]
      · rw [done.get_set_of_ne hu]
        exact h.ended u serial c hc }

/-- After the decoders the outputs are stopped. What may be missing is a decoder that was left
behind. -/
theorem tornDown_iff (h : Ledger configured (.both true) calls) :
    TornDown (.stopSurface :: if configured.get .audio = true then .stopAudio :: calls else calls) ↔
      .createAudio false ∉ calls := by
  -- by the ledger, of each track the decoder made last was ended once, and no other
  have hended (t : Track) (serial : Nat) (c : DecoderCall) (hc : c = .stop ∨ c = .release) :
      told t serial c calls = if configured.get t = true ∧ serial = made t calls then 1 else 0 := by
    simpa using h.ended t serial c hc
  have hsurface := h.surface
  have haudio := h.audio
  -- the two stops at the end are no calls to decoders
  have htold (t : Track) (serial : Nat) (c : DecoderCall) :
      told t serial c (.stopSurface ::
        if configured.get .audio = true then .stopAudio :: calls else calls) =
        told t serial c calls := by
    split <;> rfl
  constructor
  · -- the decoder that was left behind got no stop
    rintro ⟨hdecoders, -, -⟩ ho
    obtain ⟨serial, hs, hother⟩ := h.orphan ho
    have hstop := (hdecoders .audio serial (by split <;> simpa using hs)).1
    rw [htold, hended _ _ _ (Or.inl rfl), if_neg hother] at hstop
    cases hstop
  · -- every decoder that started is that of its track, and has been ended
    intro ho
    refine ⟨fun t serial hs => ?_, fun hcreated => ?_, ?_⟩
    · have hs' : Started t serial calls := by split at hs <;> simpa using hs
      have hcurrent := (h.current t serial hs').resolve_right ho
      rw [htold, htold, hended _ _ _ (Or.inl rfl), hended _ _ _ (Or.inr rfl), if_pos hcurrent]
      exact ⟨rfl, rfl⟩
    · have hset : configured.get .audio = true :=
        h.output (by split at hcreated <;> simpa using hcreated)
      simp [hset, haudio]
    · split <;> simp [hsurface]

end Ledger

/-- A record of a stopped session: complete, unless a decoder was left behind or the last call
was refused. -/
def Settled (calls : List DeviceCall) : Prop :=
  TornDown calls ↔ .createAudio false ∉ calls ∧ ¬ LastRefused calls

/-- When both decoders have ended and the outputs are stopped the record is complete, but for a
decoder that was left behind. -/
theorem settled_of_ledger {configured : PerTrack Bool} {calls : List DeviceCall}
    (h : Ledger configured (.both true) calls) :
    Settled (.stopSurface ::
      if configured.get .audio = true then .stopAudio :: calls else calls) := by
  have hlast : ¬ LastRefused (.stopSurface ::
      if configured.get .audio = true then .stopAudio :: calls else calls) := by
    rintro ⟨t, serial, c, e, heq⟩
    cases heq
  rw [Settled, h.tornDown_iff]
  split <;> simp_all

/-- A decoder that refuses its part in a teardown keeps the surface from being stopped. -/
theorem settled_of_refused {calls : List DeviceCall} (hsurface : calls.count .stopSurface = 0)
    (hlast : LastRefused calls) : Settled calls :=
  iff_of_false (fun ⟨_, _, h⟩ => by simp [hsurface] at h) fun h => h.2 hlast

end Playout
