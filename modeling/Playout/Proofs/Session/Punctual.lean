import Mathlib.Data.List.Induction
import Playout.Proofs.Decode.Calls
import Playout.Proofs.Session.Alarm
import Playout.Proofs.Session.Playback

/-!
# Frames are presented on time

No frame is offered to the decoder to be presented before its time, and when the due timers have
been heard no frame waits whose time has long come. The first is read off the record of the calls:
what a message adds to it offers only frames that are due, and frames that were offered before and
wait for a retry (`handle_offers`). The second is the work of the wake-up (`fireDue_fired`).

Both need a clock that does not go back; `play_presents_in_time` puts them together. How late a
frame may be is up to the clock: the wait for a wake-up is measured by one look at it and counted
from the next, so the time between the two is lost (`frame_waits_past_its_time`).
-/

namespace Playout

open Playout.Action

variable {σ : Type}

/-! ## What a record adds to another -/

/-- Since the record was `calls`, frames were only offered in slots of which `ok` holds. -/
def OffersOnly (ok : Nat → Prop) (calls : List DeviceCall) (w : World (Recorded σ)) : Prop :=
  ∃ new, w.devices.calls = new ++ calls ∧
    ∀ serial slot refusal, .decoder .video serial (.renderOutput slot) refusal ∈ new → ok slot

section Offers

variable {ok ok' : Nat → Prop} {calls : List DeviceCall} {w w' : World (Recorded σ)}

/-- Where nothing was told nothing was offered. -/
theorem OffersOnly.refl (ok : Nat → Prop) (w : World (Recorded σ)) :
    OffersOnly ok w.devices.calls w :=
  ⟨[], rfl, fun _ _ _ hmem => absurd hmem List.not_mem_nil⟩

/-- Fewer slots may be offered than might be. -/
theorem OffersOnly.imp (h : OffersOnly ok calls w) (himp : ∀ slot, ok slot → ok' slot) :
    OffersOnly ok' calls w := by
  obtain ⟨new, hcalls, hnew⟩ := h
  exact ⟨new, hcalls, fun serial slot refusal hmem => himp slot (hnew serial slot refusal hmem)⟩

/-- One more call that offers no other frame. -/
theorem OffersOnly.record {c : DeviceCall} (h : OffersOnly ok calls w)
    (hw' : w'.devices.calls = c :: w.devices.calls)
    (hc : ∀ serial slot refusal,
      c = .decoder .video serial (.renderOutput slot) refusal → ok slot) :
    OffersOnly ok calls w' := by
  obtain ⟨new, hcalls, hnew⟩ := h
  refine ⟨c :: new, by rw [hw', hcalls, List.cons_append], ?_⟩
  intro serial slot refusal hmem
  rcases List.mem_cons.mp hmem with heq | hmem
  · exact hc serial slot refusal heq.symm
  · exact hnew serial slot refusal hmem

/-- A call of a decoder, if what it offers is among `ok`. -/
theorem offersOnly_call (P : Platform σ) {t : Track} {c : DecoderCall}
    (hc : t = .video → ∀ slot, c = .renderOutput slot → ok slot) :
    Pipeline.CallKeeps (P.recorded.decoderDevice t) (OffersOnly ok calls) c := by
  intro w h
  refine h.record (recorded_call P t c w) ?_
  intro serial slot refusal heq
  cases heq
  exact hc rfl slot rfl

/-- A call that makes a frame wait is one that offers it. -/
theorem Standing.mem_waiting_note {s : Standing} {c : DeviceCall} {slot : Nat}
    (h : slot ∈ (s.note c).waiting) : slot ∈ s.waiting ∨
      ∃ serial refusal, c = .decoder .video serial (.renderOutput slot) refusal := by
  -- what an offer adds to those that wait is its own slot
  have hoffer (slot' : Nat) (h : slot ∈ (s.offer slot').waiting) :
      slot ∈ s.waiting ∨ slot = slot' := by
    by_cases hmem : slot' ∈ s.waiting
    · rw [offer_of_mem hmem] at h
      exact Or.inl h
    · rw [offer_of_not_mem hmem] at h
      exact (List.mem_append.mp h).imp id List.mem_singleton.mp
  unfold note at h
  split at h
  -- accepted: the slot that was offered goes, and others may have waited before
  · next serial slot' =>
    exact (hoffer slot' (List.mem_of_mem_erase h)).imp id fun heq => ⟨serial, none, by rw [heq]⟩
  · next serial slot' e =>
    exact (hoffer slot' h).imp id fun heq => ⟨serial, some e, by rw [heq]⟩
  · exact Or.inl h

/-- A frame that waits for another offer waited before, or has been offered since. -/
theorem OffersOnly.waiting (h : OffersOnly ok calls w) {slot : Nat}
    (hslot : slot ∈ (frames w).waiting) : slot ∈ (standing calls).waiting ∨ ok slot := by
  obtain ⟨new, hcalls, hnew⟩ := h
  unfold frames at hslot
  rw [hcalls] at hslot
  clear hcalls
  revert hslot
  -- by induction on what the record has grown by, the newest call first
  induction new with
  | nil => exact Or.inl
  | cons c new ih =>
    intro hslot
    rw [List.cons_append, standing_cons] at hslot
    rcases Standing.mem_waiting_note hslot with hwaited | ⟨serial, refusal, rfl⟩
    · refine ih ?_ hwaited
      intro serial slot refusal hmem
      exact hnew serial slot refusal (List.mem_cons_of_mem _ hmem)
    · exact Or.inr (hnew serial slot refusal List.mem_cons_self)

end Offers

namespace Session

variable {P : Platform σ} {now : Readings} {s : Session} {w : World (Recorded σ)}
  {st : Session × World (Recorded σ)} {calls : List DeviceCall} {ok : Nat → Prop}

/-! ## What a message offers -/

/-- A frame waits in the slot whose time has come, or the slot has been deferred. -/
def Due (time : Int) (s : Session) (slot : Nat) : Prop :=
  (∃ f ∈ s.scheduler.queue, f.slot = slot ∧ f.pts ≤ time) ∨
    ∃ kind, (slot, kind) ∈ s.deferredFrames

section Messages

/-- The action offers only frames in slots of which `ok` holds. -/
def Offering (ok : Nat → Prop) (calls : List DeviceCall) {α : Type} (a : Step (Recorded σ) α)
    (st : Session × World (Recorded σ)) : Prop :=
  a.Ends st (fun _ t => OffersOnly ok calls t.2) fun _ t => OffersOnly ok calls t.2

/-- Giving a slot back offers a frame only if the slot is given back to be presented. -/
theorem giveBack_offers {t : Track} {kind : ReturnKind} {slot : Nat}
    (hslot : t = .video → kind = .render → ok slot) :
    (giveBack P.recorded t kind slot).Keeps fun r => OffersOnly ok calls r.2 := by
  apply Pipeline.returnOutput_calls
  apply offersOnly_call
  intro ht slot' hcall
  cases kind with
  | release => cases hcall
  | render =>
    cases hcall
    exact hslot ht rfl

/-- Feeding a decoder offers no frame. -/
theorem withPipeline_offers (track : Nat)
    {a : DecoderDevice (World (Recorded σ)) → Pipeline.Step (World (Recorded σ)) Unit}
    (ha : ∀ t, (a (P.recorded.decoderDevice t)).Keeps fun r => OffersOnly ok calls r.2)
    (h : OffersOnly ok calls st.2) : Offering ok calls (withPipeline P.recorded track a) st := by
  refine ends_withPipeline track a (fun t p _ _ => ?_) (fun _ => h) fun _ _ _ => h
  rw [ends_onPipeline]
  exact ha t (p, st.2) h

/-- A unit that is fed to a decoder is no frame. -/
theorem input_offers (t : Track) (slot : Nat) (unit : AccessUnit) :
    Pipeline.CallKeeps (P.recorded.decoderDevice t) (OffersOnly ok calls) (.queueInput slot unit) :=
  offersOnly_call P fun _ _ heq => by cases heq

/-- Setting a track up offers nothing: there is no call to present among its calls. -/
theorem setFormat_offers (track : Nat) (format : MediaFormat) (h : OffersOnly ok calls w) :
    Offering ok calls (setFormat P.recorded track format) (s, w) := by
  apply (ends_setFormat_keeping (C := fun _ => True) (F := fun _ => True)
    (Q := fun _ t => OffersOnly ok calls t.2) (K := OffersOnly ok calls) h ?create ?output
    ?configure trivial trivial (fun _ _ _ _ => trivial) (fun _ _ _ => trivial)
    fun _ _ _ _ _ hw => hw).imp
  · intro _ _ ht
    exact ht
  · intro _ _ ht
    exact ht.2.2
  case create =>
    intro t w' hw'
    exact hw'.record rfl fun _ _ _ heq => by cases heq
  case output =>
    intro w' hw'
    exact hw'.record rfl fun _ _ _ heq => by cases heq
  case configure =>
    intro t w' hw'
    -- configuring and starting are calls, but they offer no slot
    have hquiet {c : DecoderCall} (hc : ∀ slot, c ≠ .renderOutput slot) :
        Pipeline.CallKeeps (P.recorded.decoderDevice t) (OffersOnly ok calls) c :=
      offersOnly_call P fun _ slot heq => absurd heq (hc slot)
    apply (Pipeline.configure_calls (hquiet nofun) (hquiet nofun) _ hw').imp
    · intro _ _ hr
      exact ⟨trivial, hr⟩
    · intro _ _ hr
      exact ⟨trivial, hr⟩

/-- A frame that comes is not offered yet; it goes to the queue of the scheduler. -/
theorem outputReady_offers (track slot : Nat) (pts : Int) (payload : List UInt8)
    (h : OffersOnly ok calls w) :
    Offering ok calls (outputReady P.recorded now track slot pts payload) (s, w) := by
  -- the slot moves in the table, and the decoder is told nothing
  have hready (p : Pipeline) : (Pipeline.outputReady slot pts payload).Ends (p, w)
      (fun _ r => OffersOnly ok calls r.2) fun _ r => OffersOnly ok calls r.2 := by
    simp only [Pipeline.outputReady, ends_bind, ends_pure]
    exact Pipeline.ends_moveOutput_or (fun _ => h) fun _ => h
  apply ends_outputReady
  case video =>
    intro p _ _
    exact hready p
  case audio =>
    intro p _ _
    refine (hready p).imp (fun output r hr => ⟨fun _ => hr, fun pacer _ => ?_⟩) fun _ _ hr => hr
    refine (Pacer.enqueue_ends _ output pacer r.2).imp ?_ fun _ _ he => he
    rintro _ q ⟨-, hworld⟩
    rw [hworld]
    exact hr
  case unknown =>
    intro _
    exact h
  case unset =>
    intro _ _ _
    exact h

/-- Audio goes back to the decoder without being presented. -/
theorem pushAudio_offers (h : OffersOnly ok calls w) :
    Offering ok calls (pushAudio P.recorded now) (s, w) := by
  apply ends_pushAudio
  · intro _
    exact h
  · intro pacer p _ _
    have hgive : Passes (giveBack P.recorded .audio .release)
        (fun _ r => OffersOnly ok calls r.2) fun _ _ => True := by
      intro slot rest r hr
      exact (giveBack_offers (fun _ heq => by cases heq) r hr).imp (fun _ _ hr => hr)
        fun _ _ hr => ⟨hr, trivial⟩
    apply (Pacer.push_owns (p := pacer) (a := (p, w)) hgive ?_ h).imp
    · intro _ r hr
      exact hr
    · intro _ r hr
      exact hr.1
    · intro _ bytes r hr
      exact hr.record rfl fun _ _ _ heq => by cases heq

/-- What is presented is due. -/
theorem renderVideo_offers (generation : Nat)
    (hok : ∀ f ∈ s.scheduler.queue, f.pts ≤ now.frames → ok f.slot) (h : OffersOnly ok calls w) :
    Offering ok calls (renderVideo P.recorded now generation) (s, w) := by
  apply ends_renderVideo
  · intro _
    exact h
  · intro p _ _
    apply (Scheduler.renderDue_keeps (s := s.scheduler) (a := (p, w))
      (I := fun r => OffersOnly ok calls r.2) now.frames ?_ h).imp
    · intro _ r hr
      exact hr
    · intro _ r hr
      exact hr
    · intro f hf hdue
      exact giveBack_offers fun _ _ => hok f hf hdue

/-- What is offered again was deferred. -/
theorem retry_offers (track : Nat) (hok : ∀ slot kind, (slot, kind) ∈ s.deferredFrames → ok slot)
    (h : OffersOnly ok calls w) :
    Offering ok calls (withPipeline P.recorded track Pipeline.retry) (s, w) := by
  refine ends_withPipeline track _ (fun t p _ hp => ?_) (fun _ => h) fun _ _ _ => h
  rw [ends_onPipeline]
  apply Pipeline.retry_calls (input_offers t) ?_ h
  rintro ⟨slot, kind⟩ hentry
  apply offersOnly_call
  -- of what is deferred only the video is presented, and its slot is the one that is called for
  rintro rfl slot' hcall
  have hvideo : s.pipelines.video = some p := hp
  have hslot : slot = slot' := by
    cases kind <;> cases hcall
    rfl
  rw [← hslot]
  apply hok slot kind
  unfold deferredFrames
  rw [hvideo]
  exact hentry

/-- A teardown offers no frame. -/
theorem teardown_offers (h : OffersOnly ok calls st.2) :
    Offering ok calls (teardown P.recorded) st := by
  have hgive (t : Track) : Passes (giveBack P.recorded t .release)
      (fun _ r => OffersOnly ok calls r.2) fun _ _ => True := by
    intro slot rest r hr
    exact (giveBack_offers (fun _ heq => by cases heq) r hr).imp (fun _ _ hr => hr)
      fun _ _ hr => ⟨hr, trivial⟩
  have hvideo : (releaseVideo P.recorded).Keeps fun t => OffersOnly ok calls t.2 := by
    rintro ⟨s, w⟩ h
    refine ends_releaseVideo (fun _ => h) fun p _ => ?_
    exact (Scheduler.releaseAll_owns (s := s.scheduler) (a := (p, w)) (hgive .video) h).imp
      (fun _ _ hr => hr) fun _ _ hr => hr.1
  have haudio : (releaseAudio P.recorded).Keeps fun t => OffersOnly ok calls t.2 := by
    rintro ⟨s, w⟩ h
    refine ends_releaseAudio (fun _ => h) fun pacer p _ _ => ?_
    exact (Pacer.releaseAll_owns (p := pacer) (a := (p, w)) (hgive .audio) h).imp
      (fun _ _ hr => hr) fun _ _ hr => hr.1
  -- what a decoder still defers is offered in a teardown too, but to be released
  have hpipeline (t : Track) :
      (teardownPipeline P.recorded t).Keeps fun t => OffersOnly ok calls t.2 := by
    rintro ⟨s, w⟩ h
    refine ends_teardownPipeline (fun _ => h) fun p _ => ?_
    have hquiet {c : DecoderCall} (hc : ∀ slot, c ≠ .renderOutput slot) :
        Pipeline.CallKeeps (P.recorded.decoderDevice t) (OffersOnly ok calls) c :=
      offersOnly_call P fun _ slot heq => absurd heq (hc slot)
    exact Pipeline.teardown_calls (fun _ => hquiet nofun) (hquiet nofun) (hquiet nofun) (p, w) h
  simp only [Offering, teardown, ends_bind, ends_get, ends_ite, ends_update, ends_pure,
    ends_onDevices, ends_publish]
  split
  · exact h
  refine hvideo.ends h (fun _ _ h => ?_) fun _ _ h => h
  refine haudio.ends h (fun _ _ h => ?_) fun _ _ h => h
  refine (hpipeline .video).ends h (fun _ _ h => ?_) fun _ _ h => h
  refine (hpipeline .audio).ends h (fun _ t ht => ?_) fun _ _ h => h
  have hsurface (w : World (Recorded σ)) (hw : OffersOnly ok calls w) : OffersOnly ok calls
      { w with devices := P.recorded.stopSurface w.devices } :=
    hw.record rfl fun _ _ _ heq => by cases heq
  split
  · have haudio : OffersOnly ok calls { t.2 with devices := P.recorded.audio.stop t.2.devices } :=
      ht.record rfl fun _ _ _ heq => by cases heq
    exact hsurface _ haudio
  · exact hsurface _ ht

/-- Doing what a message says offers what is due, and nothing else: wake-ups present what waits in
the queue, and retries what was deferred. -/
theorem dispatch_offers (m : Message) (hok : ∀ slot, Due now.frames s slot → ok slot)
    (h : OffersOnly ok calls w) : Offering ok calls (dispatch P.recorded now m) (s, w) := by
  cases m with
  | setFormat track format => exact setFormat_offers track format h
  | queueUnit track unit =>
    simp only [Offering, dispatch, ends_bind, ends_update]
    exact withPipeline_offers (a := (Pipeline.submit · unit)) track
      (fun t => (Pipeline.submit_spares (input_offers t) unit).keeps) h
  | inputsAvailable track slots =>
    exact withPipeline_offers (a := (Pipeline.inputsAvailable · slots)) track
      (fun t => (Pipeline.inputsAvailable_spares (input_offers t) slots).keeps) h
  | outputReady track slot pts payload => exact outputReady_offers track slot pts payload h
  | pushAudio => exact pushAudio_offers h
  | retryDecoder track =>
    -- a frame that was deferred was offered before, so it may be offered again
    have hdeferred (slot : Nat) (kind : ReturnKind) (hmem : (slot, kind) ∈ s.deferredFrames) :
        ok slot := hok slot (Or.inr ⟨kind, hmem⟩)
    simp only [Offering, dispatch, ends_bind]
    apply ends_disarmRetry
    · intro t _
      exact retry_offers (s := { s with retryArmed := s.retryArmed.set t false }) track hdeferred h
    · intro _
      exact retry_offers track hdeferred h
  | renderVideo generation =>
    exact renderVideo_offers generation (fun f hf hdue => hok _ (Or.inl ⟨f, hf, rfl, hdue⟩)) h
  | shutdown => exact teardown_offers h

/-- **What a message offers.** Whatever it says and however it ends, frames are only offered in
slots where a frame waits whose time has come, and in slots that were deferred. -/
theorem handle_offers (m : Message) (st : Session × World (Recorded σ)) :
    Offering (Due now.frames st.1) st.2.devices.calls (handle P.recorded now m) st :=
  handle_world (OffersOnly.refl _ st.2)
    (dispatch_offers m (fun _ hdue => hdue) (OffersOnly.refl _ st.2)) fun _ ht => teardown_offers ht

end Messages

/-! ## One beat -/

/-- Taking a message adds nothing to the record. -/
theorem Beat.take_calls (b : Beat σ) (st : Session × World (Recorded σ)) :
    (b.take st).2.2.devices.calls = st.2.devices.calls := by
  unfold take
  split
  · rfl
  · split <;> rfl
  · split <;> rfl
  · rfl

/-- What a beat offers is due when it begins. -/
theorem Beat.perform_offers (b : Beat σ) (P : Platform σ) (st : Session × World (Recorded σ)) :
    OffersOnly (Due b.now.frames st.1) st.2.devices.calls (b.perform P st).2 := by
  have hcalls := b.take_calls st
  have hsame := (b.take_same st).1
  -- taking the message from timers or mailbox changes neither the queue nor what is deferred
  have hdue : Due b.now.frames (b.take st).2.1 = Due b.now.frames st.1 := by
    unfold Due
    rw [hsame.queue, hsame.deferred]
  rw [← hcalls, ← hdue]
  apply b.perform_ends (Q := fun t => OffersOnly _ _ t.2)
  · intro _
    exact OffersOnly.refl _ _
  · intro m _
    exact handle_offers m (b.take st).2

/-- A session that has stopped offers nothing. -/
theorem Beat.perform_stopped_offers (b : Beat σ) (P : Platform σ) (hstopped : st.1.stopped = true) :
    OffersOnly (fun _ => False) st.2.devices.calls (b.perform P st).2 := by
  have hcalls := b.take_calls st
  have htaken : (b.take st).2.1.stopped = true := (b.take_same st).2.1.trans hstopped
  rw [← hcalls]
  apply b.perform_ends (Q := fun t => OffersOnly _ _ t.2)
  · intro _
    exact OffersOnly.refl _ _
  · intro m _
    exact (ends_handle_stopped htaken).mpr (OffersOnly.refl _ _)

/-- The message that a beat takes is in hand. -/
theorem Beat.take_inTime (b : Beat σ) {lag clock : Int} (h : InTime lag clock [] st.1) :
    InTime lag clock (b.take st).1.toList (b.take st).2.1 := by
  unfold take
  split
  · exact h.keep _
  · split
    · exact h
    · next hpop => exact h.take hpop
  · split
    · exact h
    · exact h.keep _
  · exact h

/-- A beat stops the session, or leaves the wake-up in time at its last reading. -/
theorem Beat.perform_inTime (b : Beat σ) (P : Platform σ) {lag clock : Int}
    (hclock : clock ≤ b.now.posting) (hlag : b.now.posting ≤ b.now.frames + lag)
    (hrunning : st.1.stopped = false) (hmatched : st.1.Matched) (h : InTime lag clock [] st.1) :
    (b.perform P st).1.stopped = true ∨ InTime lag b.now.posting [] (b.perform P st).1 := by
  obtain ⟨-, hstopped, hmatched'⟩ := b.take_same st
  -- from the last reading on to this one; the message that is taken may be the wake-up itself
  have htaken := (b.take_inTime h).later hclock
  apply b.perform_ends (Q := fun t => t.1.stopped = true ∨ InTime lag b.now.posting [] t.1)
  · intro htake
    rw [htake] at htaken
    exact Or.inr htaken
  · intro m htake
    rw [htake] at htaken
    exact handle_inTime hlag (hstopped.trans hrunning) (hmatched' hmatched) htaken

/-! ## Runs -/

/-- The frame that waits in an output slot. -/
def waitingIn (s : Session) (slot : Nat) : Option DecodedOutput :=
  s.scheduler.queue.find? (·.slot = slot)

/-- The frame that was the last to wait in an output slot. -/
def lastIn (P : Platform σ) (slot : Nat) :
    List (Beat σ) → Session × World (Recorded σ) → Option DecodedOutput
  | [], st => st.1.waitingIn slot
  | b :: beats, st => (lastIn P slot beats (b.perform P st)).or (st.1.waitingIn slot)

/-- The last of some beats comes after the others. -/
theorem play_snoc (P : Platform σ) (beats : List (Beat σ)) (b : Beat σ)
    (st : Session × World (Recorded σ)) :
    play P (beats ++ [b]) st = b.perform P (play P beats st) := by
  unfold play
  rw [List.foldl_append]
  rfl

/-- After one beat more the last frame in a slot is the one that waits there, or else the one
before. -/
theorem lastIn_snoc (P : Platform σ) (slot : Nat) (beats : List (Beat σ)) (b : Beat σ)
    (st : Session × World (Recorded σ)) :
    lastIn P slot (beats ++ [b]) st =
      ((play P (beats ++ [b]) st).1.waitingIn slot).or (lastIn P slot beats st) := by
  induction beats generalizing st with
  | nil => rfl
  | cons b' beats ih =>
    show (lastIn P slot (beats ++ [b]) (b'.perform P st)).or _ = _
    rw [ih, Option.or_assoc]
    rfl

/-- In a slot where a frame waits that frame is the last. -/
theorem lastIn_of_waiting (P : Platform σ) (beats : List (Beat σ)) {slot : Nat} {f : DecodedOutput}
    (h : (play P beats st).1.waitingIn slot = some f) : lastIn P slot beats st = some f := by
  induction beats generalizing st with
  | nil => exact h
  | cons b beats ih =>
    show (lastIn P slot beats (b.perform P st)).or _ = _
    rw [ih h]
    rfl

/-- No two frames wait in one slot. -/
theorem Matched.slots_nodup (h : s.Matched) : s.scheduler.slots.Nodup := by
  cases hp : s.pipelines.get .video with
  | none =>
    have hidle : s.scheduler.slots = [] := h.idle .video hp
    rw [hidle]
    exact List.nodup_nil
  | some p => exact (h.fits .video p hp).held_nodup

/-- A frame that waits is the one in its slot, as no two frames wait in one. -/
theorem Matched.waitingIn_of_mem (h : s.Matched) {f : DecodedOutput}
    (hf : f ∈ s.scheduler.queue) : s.waitingIn f.slot = some f := by
  have hnodup := h.slots_nodup
  unfold waitingIn
  unfold Scheduler.slots at hnodup
  generalize s.scheduler.queue = queue at hf hnodup
  -- by induction on the queue: a frame further back has another slot than the front one
  induction queue with
  | nil => cases hf
  | cons g queue ih =>
    obtain ⟨hnot, hrest⟩ := List.nodup_cons.mp hnodup
    rcases List.mem_cons.mp hf with rfl | hf
    · simp
    · have hslot : f.slot ∈ queue.map (·.slot) := List.mem_map_of_mem hf
      have hne : g.slot ≠ f.slot := (ne_of_mem_of_not_mem hslot hnot).symm
      rw [List.find?_cons_of_neg (by simpa using hne)]
      exact ih hf hrest

/-- A slot that is deferred holds no frame that waits. -/
theorem Matched.waitingIn_of_deferred (h : s.Matched) {slot : Nat} {kind : ReturnKind}
    (hslot : (slot, kind) ∈ s.deferredFrames) : s.waitingIn slot = none := by
  unfold deferredFrames at hslot
  cases hp : s.pipelines.video with
  | none =>
    rw [hp] at hslot
    cases hslot
  | some p =>
    rw [hp] at hslot
    have hexact : p.Exact s.scheduler.slots [] := h.fits .video p hp
    -- the pipeline knows a deferred slot as one that is coming back, and those of the queue as held
    have hreturning : p.outputs.state? slot = some .returning :=
      hexact.returning_state slot (List.mem_map_of_mem (f := Prod.fst) hslot)
    have hnot : slot ∉ s.scheduler.slots := hexact.held_state.not_mem hreturning (by decide)
    unfold waitingIn
    rw [List.find?_eq_none]
    intro f hf heq
    exact hnot (List.mem_map.mpr ⟨f, hf, by simpa using heq⟩)

/-- After `beats` that begin with `start` the wake-up is in time, and of what has been deferred the
time has come. -/
structure OnSchedule (P : Platform σ) (start : Session × World (Recorded σ)) (beats : List (Beat σ))
    (lag clock : Int) : Prop where
  playing : ∃ shown, Playing shown (play P beats start)
  inTime : InTime lag clock [] (play P beats start).1
  deferred : ∀ slot kind, (slot, kind) ∈ (play P beats start).1.deferredFrames →
    ∃ f, lastIn P slot beats start = some f ∧ f.pts ≤ clock

namespace OnSchedule

variable {start : Session × World (Recorded σ)} {beats : List (Beat σ)} {lag clock time : Int}

/-- What is on schedule at a reading is so at a later one. -/
theorem later (h : OnSchedule P start beats lag clock) (hclock : clock ≤ time) :
    OnSchedule P start beats lag time := by
  refine ⟨h.playing, h.inTime.later hclock, fun slot kind hslot => ?_⟩
  obtain ⟨f, hf, hdue⟩ := h.deferred slot kind hslot
  exact ⟨f, hf, Int.le_trans hdue hclock⟩

/-- The frame in a slot that is due is one whose time has come. -/
theorem due (h : OnSchedule P start beats lag clock) {slot : Nat}
    (hslot : Due clock (play P beats start).1 slot) :
    ∃ f, lastIn P slot beats start = some f ∧ f.pts ≤ clock := by
  rcases hslot with ⟨f, hf, rfl, hdue⟩ | ⟨kind, hdeferred⟩
  · obtain ⟨shown, hplaying⟩ := h.playing
    exact ⟨f, lastIn_of_waiting P beats (hplaying.matched.waitingIn_of_mem hf), hdue⟩
  · exact h.deferred slot kind hdeferred

/-- One more beat stops the session, or all goes on as it should. -/
theorem beat (h : OnSchedule P start beats lag clock)
    (hrunning : (play P beats start).1.stopped = false) {b : Beat σ}
    (hclock : clock ≤ b.now.frames) (hframes : b.now.frames ≤ b.now.posting)
    (hlag : b.now.posting ≤ b.now.frames + lag) :
    (play P (beats ++ [b]) start).1.stopped = true ∨
      OnSchedule P start (beats ++ [b]) lag b.now.posting := by
  have hnow := h.later hclock
  have hposting : clock ≤ b.now.posting := Int.le_trans hclock hframes
  obtain ⟨shown, hplaying⟩ := h.playing
  have hoffers := b.perform_offers P (play P beats start)
  have hlast (slot : Nat) := lastIn_snoc P slot beats b start
  rw [play_snoc] at hlast ⊢
  rcases hplaying.beat hrunning P b with hstopped | ⟨hplaying', -⟩
  · exact Or.inl hstopped
  · refine (b.perform_inTime P hposting hlag hrunning hplaying.matched h.inTime).imp id
      fun hinTime => ?_
    have hlinked := hplaying'.linked
    have hmatched := hplaying'.matched
    rw [← play_snoc] at hplaying' hinTime
    refine ⟨⟨_, hplaying'⟩, hinTime, fun slot kind hslot => ?_⟩
    rw [play_snoc] at hslot
    rw [hlast, hmatched.waitingIn_of_deferred hslot, Option.none_or]
    -- what is deferred now was deferred before, or has just been offered
    have hwaiting : slot ∈ (frames (b.perform P (play P beats start)).2).waiting := by
      rw [hlinked] at hslot
      obtain ⟨slot', hslot', heq⟩ := List.mem_map.mp hslot
      cases heq
      exact hslot'
    have hdue : Due b.now.frames (play P beats start).1 slot := by
      rcases hoffers.waiting hwaiting with hwaited | hdue
      · refine Or.inr ⟨.render, ?_⟩
        rw [hplaying.linked]
        exact List.mem_map_of_mem hwaited
      · exact hdue
    -- what is due is due for the frame that was the last to wait in its slot
    obtain ⟨f, hf, hpts⟩ := hnow.due hdue
    exact ⟨f, hf, Int.le_trans hpts hframes⟩

end OnSchedule

/-- Under a clock that does not go back every run stays on schedule. -/
theorem play_onSchedule (P : Platform σ) (tolerance : Int) (devices : σ) {beats : List (Beat σ)}
    {lag clock : Int} (honward : Onward (beats.map (·.now)))
    (hlag : ∀ b ∈ beats, b.now.posting ≤ b.now.frames + lag)
    (hclock : ∀ b ∈ beats, b.now.posting ≤ clock)
    (hrunning : (play P beats (opening tolerance devices)).1.stopped = false) :
    OnSchedule P (opening tolerance devices) beats lag clock := by
  -- by induction on the beats from the end, so that each is the last after those before it
  induction beats using List.reverseRecOn generalizing clock with
  | nil =>
    refine ⟨⟨[], opening_playing tolerance devices⟩, ⟨List.Pairwise.nil, rfl, nofun⟩, ?_⟩
    intro slot kind hslot
    cases hslot
  | append_singleton beats b ih =>
    rw [List.map_append] at honward
    obtain ⟨hbefore, hlast, hbetween⟩ := honward.append
    have hb : b ∈ beats ++ [b] := List.mem_append_right _ List.mem_cons_self
    -- the session has not been stopped before its last beat
    have hrun : (play P beats (opening tolerance devices)).1.stopped = false := by
      by_contra hstopped
      rw [play_snoc, b.perform_stopped (by simpa using hstopped)] at hrunning
      cases hrunning
    have hbeats := ih hbefore (fun b' hb' => hlag b' (List.mem_append_left _ hb'))
      (fun b' hb' => hbetween _ (List.mem_map_of_mem hb') _ List.mem_cons_self) hrun
    obtain ⟨htimers, hframes⟩ := hlast.of_mem List.mem_cons_self
    have hbeat := (hbeats.beat hrun htimers hframes (hlag b hb)).resolve_left (by simp [hrunning])
    exact hbeat.later (hclock b hb)

/-- **Frames are presented in time.** Let any beats go by, whatever the devices answer, and then
`clock`, where no reading is less than one before it; let `lag` be the most that passes between the
look at the clock that is for the frames and the next one. Then

- if the session runs and hearing the due timers ends without a fault, it still runs, and some
  frames from the front of the queue were offered to the decoder, each once and in their order. The
  time of each of these had come, and the others wait as they did. At the last reading, where no
  timer was due any more, the time of these had not come, or had come less than `lag` ago;
- whatever beat comes next, every frame that it offers to be presented is one whose time has come:
  the frame that was the last to wait in the slot;
- a teardown offers no frame. -/
theorem play_presents_in_time (P : Platform σ) (tolerance : Int) (devices : σ)
    (beats : List (Beat σ)) (clock : List Readings) (lag : Int)
    (honward : Onward (beats.map (·.now) ++ clock))
    (hlag : ∀ now ∈ beats.map (·.now) ++ clock, now.posting ≤ now.frames + lag) :
    let start : Session × World (Recorded σ) := opening tolerance devices
    let st := play P beats start
    let queue := st.1.scheduler.queue
    (st.1.stopped = false → (queue.map (·.slot)).Nodup ∧
      (fireDue P.recorded clock).Ends st
        (fun n t => ∀ k, n = some k → ∃ last first, clock[k]? = some last ∧
          t.1.stopped = false ∧ queue = first ++ t.1.scheduler.queue ∧
          (∀ f ∈ first, f.pts ≤ last.timers) ∧
          (∀ f ∈ t.1.scheduler.queue, last.timers < f.pts + lag) ∧
          (frames t.2).offered = (frames st.2).offered ++ first.map (·.slot))
        fun _ _ => True) ∧
    (∀ now ∈ clock, ∀ source,
      OffersOnly (fun slot => ∃ f, lastIn P slot beats start = some f ∧ f.pts ≤ now.frames)
        st.2.devices.calls (Beat.perform P ⟨now, source⟩ st).2) ∧
    (teardown P.recorded).Ends st (fun _ t => OffersOnly (fun _ => False) st.2.devices.calls t.2)
      fun _ t => OffersOnly (fun _ => False) st.2.devices.calls t.2 := by
  intro start st queue
  obtain ⟨hbeats, hnext, hbetween⟩ := honward.append
  have hbefore (now : Readings) (hnow : now ∈ clock) (b : Beat σ) (hb : b ∈ beats) :
      b.now.posting ≤ now.timers := hbetween _ (List.mem_map_of_mem hb) now hnow
  have honSchedule (hrunning : st.1.stopped = false) {now : Readings} (hnow : now ∈ clock) :
      OnSchedule P start beats lag now.timers :=
    play_onSchedule P tolerance devices hbeats
      (fun b hb => hlag _ (List.mem_append_left _ (List.mem_map_of_mem hb)))
      (fun b hb => hbetween _ (List.mem_map_of_mem hb) now hnow) hrunning
  refine ⟨fun hrunning => ?_, fun now hnow source => ?_, teardown_offers (OffersOnly.refl _ _)⟩
  · have hplaying : Playing _ st := (play_playing P tolerance devices beats hrunning).1
    refine ⟨hplaying.matched.slots_nodup, ?_⟩
    cases clock with
    | nil => exact nofun
    | cons now clock =>
      have hinTime := (honSchedule hrunning List.mem_cons_self).inTime
      have hfired : Fired lag now.timers [] st st :=
        ⟨hrunning, hplaying.matched, hplaying.linked, hinTime, [], rfl, by simp, by simp⟩
      -- the beats end before the first of these readings, and no later one is before that
      have hfirst : ∀ next ∈ now :: clock, now.timers ≤ next.timers := by
        obtain ⟨htimers, hframes⟩ := hnext.of_mem List.mem_cons_self
        intro next hmem
        rcases List.mem_cons.mp hmem with rfl | hmem
        · exact Int.le_refl _
        · have hposting := hnext.cons.2 next hmem
          omega
      refine (fireDue_fired hfired hnext hfirst fun next hmem =>
        hlag next (List.mem_append_right _ hmem)).imp ?_ fun _ _ _ => trivial
      rintro n t hn k hk
      obtain ⟨last, hlast, hfired, hpop⟩ := hn k hk
      obtain ⟨first, hqueue, hdue, hoffered⟩ := hfired.shown
      exact ⟨last, first, hlast, hfired.running, hqueue, hdue,
        hfired.inTime.ahead (Int.le_refl _) hpop, hoffered⟩
  · cases hrunning : st.1.stopped with
    | true => -- a session that has stopped offers nothing
      exact (Beat.perform_stopped_offers ⟨now, source⟩ P hrunning).imp fun _ hfalse => hfalse.elim
    | false => -- one that runs offers what is due
      have hschedule := (honSchedule hrunning hnow).later (hnext.of_mem hnow).1
      exact (Beat.perform_offers ⟨now, source⟩ P st).imp fun _ hdue => hschedule.due hdue

/-- Two frames come before their times. While the first one is handled the clock goes on by 3. -/
def slowBeats : List (Beat Nat) :=
  [⟨.still 0, .sent (.setFormat 0 (.video "video/avc" 64 64))⟩,
    ⟨⟨0, 0, 3, .both 3⟩, .sent (.outputReady 0 0 1000 [])⟩,
    ⟨.still 3, .sent (.outputReady 0 1 2000 [])⟩]

/-- The session and its world when both frames wait. -/
def bothWaiting : Session × World (Recorded Nat) := play hesitant slowBeats (opening 0 0)

/-- The readings while the timers are heard between the times of the two frames. -/
def betweenTimes : List Readings := [⟨1500, 1500, 1502, .both 1502⟩, .still 1502]

/-- Between their times the first of the two frames is presented, and the second one waits. -/
theorem first_frame_in_time :
    Onward (slowBeats.map (·.now) ++ betweenTimes) ∧
      (∀ now ∈ slowBeats.map (·.now) ++ betweenTimes, now.posting ≤ now.frames + 3) ∧
      bothWaiting.1.stopped = false ∧
      bothWaiting.1.scheduler.queue.map (fun f => (f.slot, f.pts)) = [(0, 1000), (1, 2000)] ∧
      (fireDue hesitant.recorded betweenTimes).Ends bothWaiting
        (fun n t => n = some 1 ∧ (∀ f ∈ t.1.scheduler.queue, 1502 < f.pts + 3) ∧
          (frames t.2).offered = [0])
        fun _ _ => False := by
  have honward : Onward (slowBeats.map (·.now) ++ betweenTimes) := by decide +kernel
  have hlag : ∀ now ∈ slowBeats.map (·.now) ++ betweenTimes, now.posting ≤ now.frames + 3 := by
    decide +kernel
  have hrunning : bothWaiting.1.stopped = false := by decide +kernel
  have hoffered : (frames bothWaiting.2).offered = [] := by decide +kernel
  have hanswer : (fireDue hesitant.recorded betweenTimes).answer? bothWaiting = some (some 1) := by
    decide +kernel
  have hqueue : bothWaiting.1.scheduler.queue.map (fun f => (f.slot, f.pts)) =
      [(0, 1000), (1, 2000)] := by decide +kernel
  obtain ⟨hheard, -, -⟩ := play_presents_in_time hesitant 0 0 slowBeats betweenTimes 3 honward hlag
  -- with a variable in its place the state is not computed again
  unfold bothWaiting at hrunning hoffered hanswer hqueue ⊢
  generalize play hesitant slowBeats (opening 0 0) = st at *
  refine ⟨honward, hlag, hrunning, hqueue, ?_⟩
  refine ((ends_of_answer? hanswer).and (hheard hrunning).2).imp ?_ fun _ _ he => he.1
  rintro n t ⟨rfl, hpresented⟩
  obtain ⟨last, first, hlast, -, hsplit, hdue, hahead, hframes⟩ := hpresented 1 rfl
  obtain rfl : last = .still 1502 := (Option.some.inj hlast).symm
  refine ⟨rfl, hahead, ?_⟩
  rw [hframes, hoffered, List.nil_append]
  rw [hsplit, List.map_append] at hqueue
  -- if nothing had been presented the first frame would be more than 3 late, and the time of the
  -- second has not come
  cases first with
  | nil =>
    obtain ⟨f, rest, hrest, hf, -⟩ := List.map_eq_cons_iff.mp hqueue
    have hpts : 1502 < f.pts + 3 := hahead f (hrest ▸ List.mem_cons_self)
    simp only [Prod.mk.injEq] at hf
    omega
  | cons f first =>
    simp only [List.map_cons, List.cons_append, List.cons.injEq, Prod.mk.injEq] at hqueue
    cases first with
    | nil => rw [List.map_singleton, hqueue.1.1]
    | cons g first =>
      simp only [List.map_cons, List.cons_append, List.cons.injEq, Prod.mk.injEq] at hqueue
      have hpts : g.pts ≤ 1502 := hdue g (List.mem_cons_of_mem _ List.mem_cons_self)
      have hlate : g.pts = 2000 := hqueue.2.1.2
      omega

/-- The time of a frame has come, and it stays in the queue although all timers that are due have
been heard: the clock stood at 0 when the wait was measured, and at 3 when it began. -/
theorem frame_waits_past_its_time :
    Onward (slowBeats.map (·.now) ++ [.still 1000]) ∧
      (play hesitant slowBeats (opening 0 0)).1.stopped = false ∧
      (fireDue hesitant.recorded [.still 1000]).Ends (play hesitant slowBeats (opening 0 0))
        (fun n t => n = some 0 ∧ t.1.stopped = false ∧ ∃ f ∈ t.1.scheduler.queue, f.pts ≤ 1000)
        fun _ _ => False := by
  decide +kernel

end Session

end Playout
