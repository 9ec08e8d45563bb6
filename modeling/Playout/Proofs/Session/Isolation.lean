import Playout.Proofs.Session.Shares

/-!
# Tracks do not disturb each other

If the devices of the tracks are independent of each other, a session treats a track as if the other
were not there. Two sessions that have the same share of a track have it still after a message of
this track, and a message of the other track leaves the share alone. The retries after a message
look at both tracks, but in a settled session there is something to be retried only for the track of
the message.

    handle_beside  : a message of a track keeps two sessions `Beside` each other
    share_of_items : the share of a track follows from what happened to this track

All of this is about sessions that run on: a fatal fault of one track ends the session for both.
-/

namespace Playout

open Playout.Action

/-- The track that a call is for; the surface is that of both. -/
def DeviceCall.track? : DeviceCall → Option Track
  | .createDecoder t _ | .decoder t _ _ _ => some t
  | .createAudio _ | .writeAudio _ | .stopAudio => some .audio
  | .stopSurface => none

variable {σ ρ α : Type}

/-! ## Records of separate tracks -/

/-- The calls for a track, the newest first. -/
def callsOf (t : Track) (calls : List DeviceCall) : List DeviceCall :=
  calls.filter (·.track? = some t)

/-- What recorded devices are to a track: its part of the devices, and its calls. -/
def recordedPart (part : Track → σ → ρ) (t : Track) (r : Recorded σ) : ρ × List DeviceCall :=
  (part t r.devices, callsOf t r.calls)

section Records

variable {part : Track → σ → ρ} {t : Track}

/-- A call for a track is one of its calls. -/
theorem callsOf_cons_own {c : DeviceCall} (hc : c.track? = some t) (calls : List DeviceCall) :
    callsOf t (c :: calls) = c :: callsOf t calls :=
  List.filter_cons_of_pos (by simpa using hc)

/-- A call for a track is none of the calls for the other. -/
theorem callsOf_cons_other {c : DeviceCall} (hc : c.track? = some t) (calls : List DeviceCall) :
    callsOf t.other (c :: calls) = callsOf t.other calls := by
  apply List.filter_cons_of_neg
  rw [hc]
  simpa using t.other_ne.symm

/-- How many decoders of a track were made can be told from the calls for this track. -/
theorem made_callsOf (t : Track) (calls : List DeviceCall) :
    made t (callsOf t calls) = made t calls :=
  List.count_filter (by simp [DeviceCall.track?])

/-- A use of the devices that is about one track is so with the record of it too. -/
theorem About.recorded {f : σ → α × σ} (hf : About part t f) {c : α → Nat → DeviceCall}
    (hc : ∀ x n, (c x n).track? = some t) :
    About (recordedPart part) t fun r : Recorded σ =>
      ((f r.devices).1, ⟨(f r.devices).2, c (f r.devices).1 (made t r.calls) :: r.calls⟩) where
  own r r' h := by
    have hcalls : callsOf t r.calls = callsOf t r'.calls := congrArg Prod.snd h
    -- the record numbers the decoders by the calls for their own track, so that the other track
    -- does not shift the numbers
    have hmade : made t r.calls = made t r'.calls := by
      rw [← made_callsOf, hcalls, made_callsOf]
    obtain ⟨hanswer, hpart⟩ := hf.own r.devices r'.devices (congrArg Prod.fst h)
    refine ⟨hanswer, Prod.ext hpart ?_⟩
    show callsOf t (_ :: r.calls) = callsOf t (_ :: r'.calls)
    rw [callsOf_cons_own (hc _ _), callsOf_cons_own (hc _ _), hanswer, hmade, hcalls]
  other r := Prod.ext (hf.other r.devices) (callsOf_cons_other (hc _ _) r.calls)

/-- Devices that are independent of each other are so with their record too. -/
theorem Platform.Separate.recorded {P : Platform σ} (hP : P.Separate part) :
    P.recorded.Separate (recordedPart part) where
  createDecoder t format :=
    (hP.createDecoder t format).recorded (c := fun answer _ => .createDecoder t answer.isOk)
      fun _ _ => rfl
  decoder t c :=
    (hP.decoder t c).recorded (c := fun answer n => .decoder t n c (refusal? answer.1))
      fun _ _ => rfl
  inputSlots t _ _ h := hP.inputSlots t _ _ (congrArg Prod.fst h)
  outputSlots t _ _ h := hP.outputSlots t _ _ (congrArg Prod.fst h)
  createAudio format :=
    (hP.createAudio format).recorded (c := fun answer _ => .createAudio answer.isOk)
      fun _ _ => rfl
  frameCount _ _ h := hP.frameCount _ _ (congrArg Prod.fst h)
  frameSize _ _ h := hP.frameSize _ _ (congrArg Prod.fst h)
  sampleRate _ _ h := hP.sampleRate _ _ (congrArg Prod.fst h)
  position _ _ h := hP.position _ _ (congrArg Prod.fst h)
  write bytes := (hP.write bytes).recorded (c := fun _ _ => .writeAudio bytes) fun _ _ => rfl

end Records

namespace Session

variable {P : Platform σ} {part : Track → σ → ρ} {t : Track} {v v' : Share ρ}
  {now : Readings} {m : Message} {st st' : Session × World σ}

/-! ## One message -/

/-- A retry for the track is asked for alike, and none for the other, if nothing waits there to be
retried. -/
theorem Beside.retry (h : Beside part t v v' st st') (hv : v.Unmarked) (hv' : v'.Unmarked)
    (time : Int) (u : Track) :
    Beside part t v v' ((scheduleRetry time u).stateAfter st)
      ((scheduleRetry time u).stateAfter st') := by
  by_cases hut : u = t
  · subst hut
    exact lockstep_scheduleRetry.stateAfter h
  -- the retry of the other track: nothing is marked there in either session, so none is posted
  · obtain rfl := Track.eq_other_of_ne hut
    have hleft : Unmarked t.other st.1 := by
      rw [← h.left] at hv
      exact hv
    have hright : Unmarked t.other st'.1 := by
      rw [← h.right] at hv'
      exact hv'
    simpa only [Action.stateAfter, scheduleRetry_unmarked hleft, scheduleRetry_unmarked hright]
      using h

/-- The same for the retries of both tracks. -/
theorem Beside.retried (h : Beside part t v v' st st') (hv : v.Unmarked) (hv' : v'.Unmarked)
    (now : Readings) : Beside part t v v' (retried now st) (retried now st') :=
  (h.retry hv hv' now.retry.video .video).retry hv hv' now.retry.audio .audio

/-- A message of a track does the same for it in two sessions that have the same share of it, and
leaves the other track alone in both. -/
theorem handle_beside (hP : P.Separate part) (hm : m.track? = some t)
    (h : Beside part t v v' st st') (hv : v.Unmarked) (hv' : v'.Unmarked)
    (hrunning : ((handle P now m).stateAfter st).1.stopped = false)
    (hrunning' : ((handle P now m).stateAfter st').1.stopped = false) :
    Beside part t v v' ((handle P now m).stateAfter st) ((handle P now m).stateAfter st') := by
  rw [(handle_runsOn P now m st hrunning).2, (handle_runsOn P now m st' hrunning').2]
  have hdispatched : Beside part t v v' ((dispatch P now m).stateAfter st)
      ((dispatch P now m).stateAfter st') := (dispatch_lockstep hP hm).stateAfter h
  have hretried := hdispatched.retried hv hv' now
  exact ⟨hretried.own, hretried.left, hretried.right⟩

/-- A message that is about no track does nothing to a track, but it may stop the session. -/
theorem dispatch_nowhere (part : Track → σ → ρ) (hm : m.track? = none) (st : Session × World σ) :
    (dispatch P now m).Ends st
      (fun _ d => d.1.stopped = true ∨ ∀ t, share part t d = share part t st)
      fun _ d => d.1.stopped = true ∨ ∀ t, share part t d = share part t st := by
  -- a message that names a track which does not exist is not looked at further
  have hunknown {track : Nat} (htrack : Track.ofNumber? track = none) {α : Type}
      (f : Track → Step σ α) : (trackOf track >>= f) = throw (.unknownTrack track) := by
    unfold trackOf
    rw [htrack]
    rfl
  have hwith {track : Nat} (htrack : Track.ofNumber? track = none) {α : Type}
      (a : DecoderDevice (World σ) → Pipeline.Step (World σ) α) :
      withPipeline P track a = throw (.unknownTrack track) := hunknown htrack _
  cases m with
  | setFormat track format =>
    simp only [dispatch, setFormat, hunknown hm, ends_throw, implies_true, or_true]
  | queueUnit track unit =>
    simp only [dispatch, hwith hm, ends_bind, ends_update, ends_throw]
    exact Or.inr fun _ => rfl
  | inputsAvailable track slots =>
    simp only [dispatch, hwith hm, ends_throw, implies_true, or_true]
  | outputReady track slot pts payload =>
    simp only [dispatch, outputReady, hwith hm, ends_bind, ends_throw, implies_true, or_true]
  | pushAudio => cases hm
  | retryDecoder track =>
    have hdisarm : (disarmRetry track : Step σ Unit) = pure () := by
      unfold disarmRetry
      rw [show Track.ofNumber? track = none from hm]
    simp only [dispatch, hdisarm, hwith hm, ends_bind, ends_pure, ends_throw, implies_true, or_true]
  | renderVideo generation => cases hm
  | shutdown => exact (teardown_stops st).imp (fun _ _ h => Or.inl h) fun _ _ h => Or.inl h

/-- A message that is not about a track leaves the share of the track alone. -/
theorem handle_elsewhere (hP : P.Separate part) (hm : m.track? ≠ some t) (h : Settled st.1)
    (hrunning : ((handle P now m).stateAfter st).1.stopped = false) :
    share part t ((handle P now m).stateAfter st) = share part t st := by
  cases hu : m.track? with
  -- a message of the other track: a case of the message that is the same in both sessions
  | some u =>
    have hut : t = u.other := Track.eq_other_of_ne fun heq => hm (by rw [hu, heq])
    rw [hut]
    exact (handle_beside hP hu (.of_share rfl) (h.unmarked _) (h.unmarked _) hrunning hrunning).left
  -- a message of no track: only the retries are left to be looked at, and nothing waits for one
  | none =>
    obtain ⟨hrun, hlater⟩ := handle_runsOn P now m st hrunning
    have hsame : ∀ t, share part t ((dispatch P now m).stateAfter st) = share part t st := by
      apply (dispatch_nowhere part hu st).stateAfter.resolve_left
      simp [hrun]
    have hunmarked (t : Track) : Unmarked t ((dispatch P now m).stateAfter st).1 := by
      intro p hp
      exact h.unmarked t p ((congrArg Share.pipeline (hsame t)).symm.trans hp)
    rw [hlater, retried_unmarked hunmarked]
    exact hsame t

/-! ## Many messages -/

/-- What a session and its devices go through: a message is handled, or the devices of a track move
on by themselves. -/
inductive Item (σ : Type) where
  | message (now : Readings) (m : Message)
  | devices (t : Track) (change : σ → σ)

namespace Item

/-- The track to which it happens. -/
def track? : Item σ → Option Track
  | message _ m => m.track?
  | devices t _ => some t

def event : Item σ → Event σ
  | message now m => .message now m
  | devices _ change => .devices change []

/-- The devices of other tracks do not move with those of the track. -/
def Local (part : Track → σ → ρ) : Item σ → Prop
  | message _ _ => True
  | devices t change => About part t fun d => ((), change d)

/-- The session and its world after an item. -/
def perform (P : Platform σ) (i : Item σ) :
    Session × World (Recorded σ) → Session × World (Recorded σ) := i.event.perform P

end Item

/-- The session and its world after some items. -/
def performAll (P : Platform σ) (items : List (Item σ)) (st : Session × World (Recorded σ)) :
    Session × World (Recorded σ) := items.foldl (fun st i => i.perform P st) st

section Items

variable {st st' : Session × World (Recorded σ)} {i : Item σ}

/-- A session that has stopped stays so. -/
theorem Item.perform_stopped (P : Platform σ) (i : Item σ) (hstopped : st.1.stopped = true) :
    (i.perform P st).1.stopped = true := by
  cases i with
  | message now m =>
    show ((handle P.recorded now m).stateAfter st).1.stopped = true
    rw [Action.stateAfter, handle_stopped hstopped, hstopped]
  | devices t change => exact hstopped

/-- Whatever happens, the session has stopped or is settled again. -/
theorem Item.perform_settled (P : Platform σ) (i : Item σ) (h : StoppedOrSettled st) :
    StoppedOrSettled (i.perform P st) := by
  cases i with
  | message now m => exact (handle_settled P.recorded now m st h).stateAfter
  | devices t change => exact h

/-- What happens to a track has the same effect on it wherever its share is the same. -/
theorem Item.perform_own (hP : P.Separate part) (hlocal : i.Local part) (hi : i.track? = some t)
    (h : Settled st.1) (h' : Settled st'.1)
    (hshare : share (recordedPart part) t st = share (recordedPart part) t st')
    (hrunning : (i.perform P st).1.stopped = false)
    (hrunning' : (i.perform P st').1.stopped = false) :
    share (recordedPart part) t (i.perform P st) =
      share (recordedPart part) t (i.perform P st') := by
  cases i with
  | message now m =>
    exact (handle_beside hP.recorded hi (.of_share hshare) (h.unmarked _) (h'.unmarked _)
      hrunning hrunning').own
  | devices u change => -- the devices of the track move on alike, and the session is not told
    obtain rfl : u = t := Option.some.inj hi
    have hbeside := Beside.of_share hshare
    have hdevices : part u st.2.devices.devices = part u st'.2.devices.devices :=
      congrArg Prod.fst hbeside.world.own
    have hcalls : callsOf u st.2.devices.calls = callsOf u st'.2.devices.calls :=
      congrArg Prod.snd hbeside.world.own
    exact Share.ext hbeside.pipeline hbeside.retryArmed hbeside.renderer hbeside.timers
      (Prod.ext (hlocal.own _ _ hdevices).2 hcalls)

/-- What happens elsewhere has no effect on the track. -/
theorem Item.perform_elsewhere (hP : P.Separate part) (hlocal : i.Local part)
    (hi : i.track? ≠ some t) (h : Settled st.1) (hrunning : (i.perform P st).1.stopped = false) :
    share (recordedPart part) t (i.perform P st) = share (recordedPart part) t st := by
  cases i with
  | message now m => exact handle_elsewhere hP.recorded hi h hrunning
  | devices u change =>
    have hut : t = u.other := Track.eq_other_of_ne fun heq => hi (congrArg some heq.symm)
    rw [hut]
    exact Share.ext rfl rfl rfl rfl (Prod.ext (hlocal.other _) rfl)

/-- More items go on from where the first have led. -/
theorem performAll_append (P : Platform σ) (items more : List (Item σ)) :
    performAll P (items ++ more) st = performAll P more (performAll P items st) :=
  List.foldl_append

/-- A session that has stopped stays so through all items. -/
theorem performAll_stopped (P : Platform σ) (items : List (Item σ))
    (hstopped : st.1.stopped = true) :
    (performAll P items st).1.stopped = true := by
  induction items generalizing st with
  | nil => exact hstopped
  | cons i rest ih => exact ih (i.perform_stopped P hstopped)

/-- A session that still runs after some items has run until then. -/
theorem running_before {P : Platform σ} (items : List (Item σ))
    (hrunning : (performAll P items st).1.stopped = false) : st.1.stopped = false := by
  by_contra hstopped
  rw [performAll_stopped P items (by simpa using hstopped)] at hrunning
  cases hrunning

/-- Through all items the session stays settled, until it stops. -/
theorem performAll_settled (P : Platform σ) (items : List (Item σ)) (h : StoppedOrSettled st) :
    StoppedOrSettled (performAll P items st) := by
  induction items generalizing st with
  | nil => exact h
  | cons i rest ih => exact ih (i.perform_settled P h)

/-- Whatever happens elsewhere has no effect on the track. -/
theorem performAll_elsewhere (hP : P.Separate part) {items : List (Item σ)}
    (hlocal : ∀ i ∈ items, i.Local part) (helsewhere : ∀ i ∈ items, i.track? ≠ some t)
    (h : StoppedOrSettled st) (hrunning : (performAll P items st).1.stopped = false) :
    share (recordedPart part) t (performAll P items st) = share (recordedPart part) t st := by
  -- by induction on the items; that the session runs at the end says that it ran at every item
  induction items generalizing st with
  | nil => rfl
  | cons i rest ih =>
    have hi : (i.perform P st).1.stopped = false := running_before rest hrunning
    have hst : st.1.stopped = false := running_before (i :: rest) hrunning
    have hfirst := Item.perform_elsewhere hP (hlocal i List.mem_cons_self)
      (helsewhere i List.mem_cons_self) (h.settled hst) hi
    have hrest := ih (fun j hj => hlocal j (List.mem_cons_of_mem i hj))
      (fun j hj => helsewhere j (List.mem_cons_of_mem i hj)) (i.perform_settled P h) hrunning
    exact hrest.trans hfirst

/-- The share of a track after some items follows from the share before them and from what happened
to the track. -/
theorem share_of_items (hP : P.Separate part) {items items' : List (Item σ)}
    (hlocal : ∀ i ∈ items, i.Local part) (hlocal' : ∀ i ∈ items', i.Local part)
    (hsame : items.filter (·.track? = some t) = items'.filter (·.track? = some t))
    (h : StoppedOrSettled st) (h' : StoppedOrSettled st')
    (hshare : share (recordedPart part) t st = share (recordedPart part) t st')
    (hrunning : (performAll P items st).1.stopped = false)
    (hrunning' : (performAll P items' st').1.stopped = false) :
    share (recordedPart part) t (performAll P items st) =
      share (recordedPart part) t (performAll P items' st') := by
  -- by induction on the items of the first session; the second one catches up at each item of the
  -- track
  induction items generalizing items' st st' with
  | nil =>
    have hnone : ∀ i ∈ items', i.track? ≠ some t := by
      intro i hi
      have := List.filter_eq_nil_iff.mp hsame.symm i hi
      simpa using this
    exact hshare.trans (performAll_elsewhere hP hlocal' hnone h' hrunning').symm
  | cons i rest ih =>
    have hi : (i.perform P st).1.stopped = false := running_before rest hrunning
    have hst : Settled st.1 := h.settled (running_before (i :: rest) hrunning)
    have hilocal := hlocal i List.mem_cons_self
    have hrest := fun j hj => hlocal j (List.mem_cons_of_mem i hj)
    by_cases hown : i.track? = some t
    · -- the other session comes to this item after some that happen elsewhere
      rw [List.filter_cons_of_pos (by simpa using hown)] at hsame
      obtain ⟨before, after, rfl, hbefore, -, hafter⟩ := List.filter_eq_cons_iff.mp hsame.symm
      rw [performAll_append] at hrunning' ⊢
      have hat : (performAll P before st').1.stopped = false :=
        running_before (i :: after) hrunning'
      have hi' : (i.perform P (performAll P before st')).1.stopped = false :=
        running_before after hrunning'
      have hreached := performAll_settled P before h'
      have hunchanged := performAll_elsewhere hP
        (fun j hj => hlocal' j (List.mem_append_left _ hj))
        (fun j hj => by simpa using hbefore j hj) h' hat
      have hnext := Item.perform_own hP hilocal hown hst (hreached.settled hat)
        (hshare.trans hunchanged.symm) hi hi'
      have hrest' : ∀ j ∈ after, j.Local part := fun j hj =>
        hlocal' j (List.mem_append_right _ (List.mem_cons_of_mem i hj))
      have hend' : (performAll P after (i.perform P (performAll P before st'))).1.stopped = false :=
        hrunning'
      have hafterwards := ih hrest hrest' hafter.symm (i.perform_settled P h)
        (i.perform_settled P hreached) hnext hrunning hend'
      exact hafterwards
    -- the first session goes on alone, and its share of the track does not change
    · rw [List.filter_cons_of_neg (by simpa using hown)] at hsame
      have hfirst := Item.perform_elsewhere hP hilocal hown hst hi
      exact ih hrest hlocal' hsame (i.perform_settled P h) h' (hfirst.trans hshare) hrunning
        hrunning'

end Items

/-- **Tracks are isolated.** The devices of the tracks are independent of each other. Two sessions
with the same lateness go through messages at any clock readings, and their devices move on by
themselves, in any order. If at the start the devices of a track are alike, and if everything that
is about this track happens in both and in the same order, then as long as neither session is
stopped the track has the same pipeline, the same renderer, the same retry, the same calls of its
devices and the same timers, in the order in which they were posted. -/
theorem tracks_isolated (P : Platform σ) (part : Track → σ → ρ) (hP : P.Separate part)
    (tolerance : Int) (devices devices' : σ) (t : Track)
    (hdevices : part t devices = part t devices') (items items' : List (Item σ))
    (hlocal : ∀ i ∈ items, i.Local part) (hlocal' : ∀ i ∈ items', i.Local part)
    (hsame : items.filter (·.track? = some t) = items'.filter (·.track? = some t))
    (hrunning : (afterEvents P tolerance devices (items.map Item.event)).1.stopped = false)
    (hrunning' : (afterEvents P tolerance devices' (items'.map Item.event)).1.stopped = false) :
    let st := afterEvents P tolerance devices (items.map Item.event)
    let st' := afterEvents P tolerance devices' (items'.map Item.event)
    st.1.pipelines.get t = st'.1.pipelines.get t ∧
      (t = .video → st.1.scheduler = st'.1.scheduler ∧ st.1.generation = st'.1.generation) ∧
      (t = .audio → st.1.pacer = st'.1.pacer) ∧
      st.1.retryArmed.get t = st'.1.retryArmed.get t ∧
      callsOf t st.2.devices.calls = callsOf t st'.2.devices.calls ∧
      st.1.timersOf t = st'.1.timersOf t := by
  intro st st'
  have hperform (d : σ) (items : List (Item σ)) :
      afterEvents P tolerance d (items.map Item.event) =
        performAll P items (new tolerance, { devices := { devices := d } }) := List.foldl_map
  have hnew : share (recordedPart part) t (new tolerance, { devices := { devices } }) =
      share (recordedPart part) t (new tolerance, { devices := { devices := devices' } }) :=
    Share.ext rfl rfl rfl rfl (Prod.ext hdevices rfl)
  -- what is said of the track is all in its share, and the shares are equal
  have hshare : share (recordedPart part) t st = share (recordedPart part) t st' := by
    rw [hperform] at hrunning hrunning'
    show share _ t (afterEvents P _ _ _) = share _ t (afterEvents P _ _ _)
    rw [hperform, hperform]
    exact share_of_items hP hlocal hlocal' hsame (Or.inr (new_settled tolerance))
      (Or.inr (new_settled tolerance)) hnew hrunning hrunning'
  have hbeside := Beside.of_share hshare
  have hcalls : callsOf t st.2.devices.calls = callsOf t st'.2.devices.calls :=
    congrArg Prod.snd hbeside.world.own
  refine ⟨hbeside.pipeline, ?_, ?_, hbeside.retryArmed, hcalls, hbeside.timers⟩
  · rintro rfl
    exact ⟨hbeside.scheduler, hbeside.generation⟩
  · rintro rfl
    exact hbeside.pacer

/-- Decoders that refuse some inputs as busy, those of each track as often as its number says, and
an output that takes everything. -/
def busyDecoders : Platform (PerTrack Nat) where
  createDecoder _ _ d := (.ok (), d)
  decoder t c d :=
    match c, d.get t with
    | .queueInput .., n + 1 => ((.error .busy, []), d.set t n)
    | _, _ => ((.ok (), []), d)
  inputSlots _ _ := 1
  outputSlots _ _ := 1
  createAudio _ d := (.ok (), d)
  audio := {
    frameCount := fun _ => 100
    frameSize := fun _ => 4
    sampleRate := fun _ => 48000
    position := fun _ => 0
    write := fun bytes d => (.ok bytes.length, d)
    stop := id }
  stopSurface := id

/-- These devices are independent: each decoder counts for itself. -/
theorem busyDecoders_separate : busyDecoders.Separate fun t d => d.get t where
  createDecoder _ _ := ⟨fun _ _ h => ⟨rfl, h⟩, fun _ => rfl⟩
  decoder t c := by
    -- the answer and the new count depend on the count of this decoder alone
    have hdecoder (d : PerTrack Nat) : busyDecoders.decoder t c d = match c, d.get t with
        | .queueInput .., n + 1 => ((.error .busy, []), d.set t n)
        | _, _ => ((.ok (), []), d) := rfl
    refine ⟨fun d d' h => ?_, fun d => ?_⟩
    · rw [hdecoder, hdecoder, ← h]
      split
      · simp
      · exact ⟨rfl, h⟩
    · rw [hdecoder]
      split
      · exact PerTrack.get_set_of_ne _ t.other_ne _
      · rfl
  inputSlots _ _ _ _ := rfl
  outputSlots _ _ _ _ := rfl
  createAudio _ := ⟨fun _ _ h => ⟨rfl, h⟩, fun _ => rfl⟩
  frameCount _ _ _ := rfl
  frameSize _ _ _ := rfl
  sampleRate _ _ _ := rfl
  position _ _ _ := rfl
  write _ := ⟨fun _ _ h => ⟨rfl, h⟩, fun _ => rfl⟩

/-- Making one decoder busy is nothing to the other. -/
theorem busyDecoders_local (t : Track) (n : Nat) :
    (Item.devices t fun d : PerTrack Nat => d.set t n).Local fun t d => d.get t where
  own d d' _ := ⟨rfl, by simp⟩
  other d := d.get_set_of_ne t.other_ne n

/-- A picture is decoded, and the decoder is too busy for the next. -/
def videoAlone : List (Item (PerTrack Nat)) :=
  [.message (.still 0) (.setFormat 0 (.video "video/avc" 64 64)),
    .message (.still 10) (.inputsAvailable 0 [0]),
    .message (.still 20) (.outputReady 0 0 100000 [7]),
    .message (.still 30) (.queueUnit 0 ⟨5, [1]⟩)]

/-- The same, and sound in between that waits for its own decoder. -/
def videoAmongAudio : List (Item (PerTrack Nat)) :=
  [.message (.still 0) (.setFormat 1 (.audio "audio/opus" 48000 2)),
    .message (.still 0) (.setFormat 0 (.video "video/avc" 64 64)),
    .message (.still 1) (.inputsAvailable 1 [0]), .message (.still 2) (.queueUnit 1 ⟨4, [1]⟩),
    .message (.still 10) (.inputsAvailable 0 [0]), .devices .audio fun d => d.set .audio 5,
    .message (.still 15) (.outputReady 1 0 4 [1, 2, 3, 4]),
    .message (.still 20) (.outputReady 0 0 100000 [7]), .message (.still 25) (.queueUnit 7 ⟨0, []⟩),
    .message (.still 26) .pushAudio, .message (.still 30) (.queueUnit 0 ⟨5, [1]⟩),
    .message (.still 40) (.retryDecoder 1)]

/-- The sound takes tickets of the timers and needs retries of its own, and the video is the same:
its decoder was told the same, and a wake-up and a retry wait. -/
theorem videoAmongAudio_isolated :
    let st := afterEvents busyDecoders 0 ⟨1, 0⟩ (videoAlone.map Item.event)
    let st' := afterEvents busyDecoders 0 ⟨1, 2⟩ (videoAmongAudio.map Item.event)
    (videoAlone.filter (·.track? = some .video) = videoAmongAudio.filter (·.track? = some .video) ∧
      st.1.stopped = false ∧ st'.1.stopped = false) ∧
    st.1.timers ≠ st'.1.timers ∧
    st.1.pipelines.get .video = st'.1.pipelines.get .video ∧
    callsOf .video st.2.devices.calls = callsOf .video st'.2.devices.calls ∧
    st.1.timersOf .video = st'.1.timersOf .video ∧ (st.1.timersOf .video).length = 2 := by
  have hrunning : (afterEvents busyDecoders 0 ⟨1, 0⟩ (videoAlone.map Item.event)).1.stopped =
      false := by decide +kernel
  have hrunning' : (afterEvents busyDecoders 0 ⟨1, 2⟩ (videoAmongAudio.map Item.event)).1.stopped =
      false := by decide +kernel
  have hsame : videoAlone.filter (·.track? = some .video) =
      videoAmongAudio.filter (·.track? = some .video) := rfl
  have hlocal : ∀ i ∈ videoAlone, i.Local fun t (d : PerTrack Nat) => d.get t := by
    simp [videoAlone, Item.Local]
  have hlocal' : ∀ i ∈ videoAmongAudio, i.Local fun t (d : PerTrack Nat) => d.get t := by
    simp only [videoAmongAudio, List.forall_mem_cons, Item.Local, true_and]
    exact ⟨busyDecoders_local .audio 5, by simp⟩
  -- the timers differ in their tickets, which the audio has used too, and not in what waits for the
  -- video
  obtain ⟨hpipeline, -, -, -, hcalls, htimers⟩ := tracks_isolated busyDecoders _
    busyDecoders_separate 0 ⟨1, 0⟩ ⟨1, 2⟩ .video rfl videoAlone videoAmongAudio hlocal hlocal' hsame
    hrunning hrunning'
  exact ⟨⟨hsame, hrunning, hrunning'⟩, by decide +kernel, hpipeline, hcalls, htimers,
    by decide +kernel⟩

end Session

end Playout
