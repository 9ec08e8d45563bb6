import Playout.Proofs.Platform.Lockstep
import Playout.Proofs.Session.Settled

/-!
# What a track has of a session

The `share` of a track is its pipeline, its renderer, its retry, its timers and its part of the
devices. A platform is `Separate` if what a device of a track does depends on the part of this track
and leaves the other part alone. Then a message of a track does the same in two sessions that have
the same share of the track, and leaves the share of the other track alone in both:

    dispatch_lockstep : the dispatch of a message of `t` keeps two sessions `Beside` each other

The timers are one queue for both tracks, so a ticket tells how many timers the other track has
posted. A share has the due times and the messages of its timers, in the order of posting, and not
their tickets.
-/

namespace Playout

namespace Track

def other : Track → Track
  | video => audio
  | audio => video

theorem other_ne (t : Track) : t.other ≠ t := by
  cases t <;> decide

theorem eq_other_of_ne {t u : Track} (h : u ≠ t) : u = t.other := by
  cases t <;> cases u <;> first | rfl | exact absurd rfl h

end Track

/-- The track that a message is about, if it exists. -/
def Message.track? : Message → Option Track
  | .setFormat track _ | .queueUnit track _ | .inputsAvailable track _
  | .outputReady track _ _ _ | .retryDecoder track => Track.ofNumber? track
  | .pushAudio => some .audio
  | .renderVideo _ => some .video
  | .shutdown => none

variable {σ ρ α : Type}

/-! ## Platforms of separate tracks -/

/-- A use of the devices is about the track `t` alone: the answer and what becomes of its part
depend on this part, and the other part stays as it is. -/
structure About (part : Track → σ → ρ) (t : Track) (f : σ → α × σ) : Prop where
  own : ∀ d d', part t d = part t d' → (f d).1 = (f d').1 ∧ part t (f d).2 = part t (f d').2
  other : ∀ d, part t.other (f d).2 = part t.other d

/-- The devices of the tracks, and what the backend answers for them, are independent of each
other: `part t` is what the state of the devices is to the track `t`. -/
structure Platform.Separate (P : Platform σ) (part : Track → σ → ρ) : Prop where
  createDecoder : ∀ t format, About part t (P.createDecoder t format)
  decoder : ∀ t c, About part t (P.decoder t c)
  inputSlots : ∀ t d d', part t d = part t d' → P.inputSlots t d = P.inputSlots t d'
  outputSlots : ∀ t d d', part t d = part t d' → P.outputSlots t d = P.outputSlots t d'
  createAudio : ∀ format, About part .audio (P.createAudio format)
  frameCount : ∀ d d', part .audio d = part .audio d' → P.audio.frameCount d = P.audio.frameCount d'
  frameSize : ∀ d d', part .audio d = part .audio d' → P.audio.frameSize d = P.audio.frameSize d'
  sampleRate : ∀ d d', part .audio d = part .audio d' → P.audio.sampleRate d = P.audio.sampleRate d'
  position : ∀ d d', part .audio d = part .audio d' → P.audio.position d = P.audio.position d'
  write : ∀ bytes, About part .audio (P.audio.write bytes)

/-- Two worlds have the same part of the track `t`, and of the other track the first has `k` and the
second `k'`. -/
structure World.Beside (part : Track → σ → ρ) (t : Track) (k k' : ρ) (w w' : World σ) : Prop where
  own : part t w.devices = part t w'.devices
  left : part t.other w.devices = k
  right : part t.other w'.devices = k'

section Devices

variable {P : Platform σ} {part : Track → σ → ρ} {t : Track} {k k' : ρ}

/-- A use of the devices that is about one track is answered alike beside any part of the other. -/
theorem World.Beside.use {f : σ → α × σ} (hf : About part t f) {w w' : World σ}
    (h : World.Beside part t k k' w w') (mailbox mailbox' : List Message) :
    (f w.devices).1 = (f w'.devices).1 ∧
      World.Beside part t k k' ⟨(f w.devices).2, mailbox⟩ ⟨(f w'.devices).2, mailbox'⟩ := by
  obtain ⟨hanswer, hown⟩ := hf.own _ _ h.own
  exact ⟨hanswer, hown, (hf.other _).trans h.left, (hf.other _).trans h.right⟩

/-- The decoder of a track runs in lockstep beside any part of the other track. -/
theorem Platform.Separate.decoderDevice (hP : P.Separate part) :
    (P.decoderDevice t).Lockstep (World.Beside part t k k') where
  call c w w' h := by
    obtain ⟨hanswer, hbeside⟩ := h.use (hP.decoder t c)
      (w.mailbox ++ (P.decoder t c w.devices).1.2) (w'.mailbox ++ (P.decoder t c w'.devices).1.2)
    have hfirst := congrArg Prod.fst hanswer
    exact ⟨hfirst, hbeside⟩
  inputSlots _ _ h := hP.inputSlots t _ _ h.own
  outputSlots _ _ h := hP.outputSlots t _ _ h.own

/-- So does the audio output. -/
theorem Platform.Separate.audioDevice (hP : P.Separate part) :
    P.audioDevice.Lockstep (World.Beside part .audio k k') where
  frameCount _ _ h := hP.frameCount _ _ h.own
  frameSize _ _ h := hP.frameSize _ _ h.own
  sampleRate _ _ h := hP.sampleRate _ _ h.own
  position _ _ h := hP.position _ _ h.own
  write bytes w w' h := h.use (hP.write bytes) w.mailbox w'.mailbox

end Devices

/-! ## Shares -/

/-- What a track has of a session and its world. -/
@[ext]
structure Share (ρ : Type) where
  pipeline : Option Pipeline
  retryArmed : Bool
  /-- The renderer, and for the video which of its wake-ups counts -/
  renderer : (Scheduler × Nat) ⊕ Option Pacer
  /-- Due times and messages of the timers, the latest posted first -/
  timers : List (Int × Message)
  devices : ρ

/-- Nothing waits to be retried. -/
def Share.Unmarked (k : Share ρ) : Prop := ∀ p, k.pipeline = some p → p.retryNeeded = false

namespace Session

open Playout.Action

/-- The renderer of a track. -/
def rendererOf (s : Session) : Track → (Scheduler × Nat) ⊕ Option Pacer
  | .video => .inl (s.scheduler, s.generation)
  | .audio => .inr s.pacer

/-- The timers of a track, the latest posted first. -/
def timersOf (s : Session) (t : Track) : List (Int × Message) :=
  (s.timers.entries.filter fun e => e.item.track? = some t).map fun e => (e.due, e.item)

def share (part : Track → σ → ρ) (t : Track) (st : Session × World σ) : Share ρ where
  pipeline := st.1.pipelines.get t
  retryArmed := st.1.retryArmed.get t
  renderer := st.1.rendererOf t
  timers := st.1.timersOf t
  devices := part t st.2.devices

/-- Two sessions have the same share of the track `t`, and of the other track the first has `v` and
the second `v'`. -/
structure Beside (part : Track → σ → ρ) (t : Track) (v v' : Share ρ)
    (st st' : Session × World σ) : Prop where
  own : share part t st = share part t st'
  left : share part t.other st = v
  right : share part t.other st' = v'

variable {P : Platform σ} {part : Track → σ → ρ} {t : Track} {v v' : Share ρ} {now : Readings}
  {time : Int}

namespace Beside

/-- Sessions with equal shares of a track are beside each other, whatever the other track is. -/
theorem of_share {st st' : Session × World σ} (h : share part t st = share part t st') :
    Beside part t (share part t.other st) (share part t.other st') st st' :=
  ⟨h, rfl, rfl⟩

variable {st st' : Session × World σ} (h : Beside part t v v' st st')
include h

theorem pipeline : st.1.pipelines.get t = st'.1.pipelines.get t := congrArg Share.pipeline h.own

theorem retryArmed : st.1.retryArmed.get t = st'.1.retryArmed.get t :=
  congrArg Share.retryArmed h.own

theorem renderer : st.1.rendererOf t = st'.1.rendererOf t := congrArg Share.renderer h.own

/-- The worlds of such sessions are beside each other. -/
theorem world : World.Beside part t v.devices v'.devices st.2 st'.2 :=
  ⟨congrArg Share.devices h.own, congrArg Share.devices h.left, congrArg Share.devices h.right⟩

theorem timers : st.1.timersOf t = st'.1.timersOf t := congrArg Share.timers h.own

/-- The sessions and the worlds go on, and the other track is left alone. -/
theorem go {s s' : Session} {w w' : World σ}
    (hworld : World.Beside part t v.devices v'.devices w w')
    (hown : share part t (s, st.2) = share part t (s', st'.2))
    (hleft : share part t.other (s, st.2) = share part t.other st)
    (hright : share part t.other (s', st'.2) = share part t.other st') :
    Beside part t v v' (s, w) (s', w') := by
  refine ⟨?_, ?_, ?_⟩
  · show { share part t (s, st.2) with devices := part t w.devices } = _
    -- pipeline, renderer, retry and timers are those of the sessions, the devices those of the
    -- worlds
    rw [hown, hworld.own]
    rfl
  · show { share part t.other (s, st.2) with devices := part t.other w.devices } = v
    rw [hleft, h.left, hworld.left]
  · show { share part t.other (s', st'.2) with devices := part t.other w'.devices } = v'
    rw [hright, h.right, hworld.right]

/-- The sessions alone go on. -/
theorem goOn {s s' : Session} (hown : share part t (s, st.2) = share part t (s', st'.2))
    (hleft : share part t.other (s, st.2) = share part t.other st)
    (hright : share part t.other (s', st'.2) = share part t.other st') :
    Beside part t v v' (s, st.2) (s', st'.2) :=
  h.go h.world hown hleft hright

end Beside

section Renderers

variable {st st' : Session × World σ}

theorem Beside.scheduler (h : Beside part .video v v' st st') :
    st.1.scheduler = st'.1.scheduler :=
  congrArg Prod.fst (Sum.inl.inj h.renderer)

theorem Beside.generation (h : Beside part .video v v' st st') :
    st.1.generation = st'.1.generation :=
  congrArg Prod.snd (Sum.inl.inj h.renderer)

theorem Beside.pacer (h : Beside part .audio v v' st st') : st.1.pacer = st'.1.pacer :=
  Sum.inr.inj h.renderer

end Renderers

/-! ## Parts of operations -/

section Parts

/-- A change of the session that reads no more than the share of the track. -/
theorem lockstep_update {f : Session → Session}
    (hown : ∀ st st', Beside part t v v' st st' →
      share part t (f st.1, st.2) = share part t (f st'.1, st'.2))
    (hother : ∀ st, share part t.other (f st.1, st.2) = share part t.other st) :
    (update f : Step σ Unit).Lockstep (Beside part t v v') :=
  fun st st' h => ⟨rfl, h.goOn (hown st st' h) (hother st) (hother st')⟩

/-- A timer of the track is posted. -/
theorem lockstep_schedule (delay : Nat) {m : Message} (hm : m.track? = some t) :
    (schedule time delay m : Step σ Unit).Lockstep (Beside part t v v') := by
  -- the ticket of the timer may differ, so what is compared are due times and messages
  have hown (st : Session × World σ) :
      ({ st.1 with timers := st.1.timers.schedule (time + delay) m } : Session).timersOf t =
        (time + delay, m) :: st.1.timersOf t := by
    simp [timersOf, TimerQueue.schedule, hm]
  have hother (st : Session × World σ) :
      ({ st.1 with timers := st.1.timers.schedule (time + delay) m } : Session).timersOf t.other =
        st.1.timersOf t.other := by
    simp [timersOf, TimerQueue.schedule, hm, t.other_ne.symm]
  apply lockstep_update
  · intro st st' h
    refine Share.ext h.pipeline h.retryArmed h.renderer ?_ h.world.own
    exact (hown st).trans ((congrArg _ h.timers).trans (hown st').symm)
  · intro st
    exact Share.ext rfl rfl rfl (hother st) rfl

/-- A use of the devices for the track. -/
theorem lockstep_onDevices {f : σ → α × σ} (hf : About part t f) :
    (onDevices f).Lockstep (Beside part t v v') := by
  intro st st' h
  obtain ⟨hanswer, hworld⟩ := h.world.use hf st.2.mailbox st'.2.mailbox
  exact ⟨hanswer, h.go hworld h.own rfl rfl⟩

/-- What is done to the pipeline of the track, in lockstep, is done in lockstep to the session. -/
theorem lockstep_onPipeline (p : Pipeline) {a : Pipeline.Step (World σ) α}
    (ha : a.Lockstep (Same (World.Beside part t v.devices v'.devices))) :
    (onPipeline t p a).Lockstep (Beside part t v v') := by
  apply ha.focus
  · intro st st' h
    exact ⟨rfl, h.world⟩
  · rintro st st' h ⟨q, w⟩ ⟨_, w'⟩ ⟨rfl, hworld⟩
    apply h.go hworld
    · refine Share.ext ?_ h.retryArmed h.renderer h.timers h.world.own
      rw [share, PerTrack.get_set_self]
      exact (PerTrack.get_set_self _ _ _).symm
    · exact Share.ext (PerTrack.get_set_of_ne _ t.other_ne _) rfl rfl rfl rfl
    · exact Share.ext (PerTrack.get_set_of_ne _ t.other_ne _) rfl rfl rfl rfl

/-- The same for the scheduler and the pipeline of the video. -/
theorem lockstep_onVideo (p : Pipeline) {a : Scheduler.Step (Pipeline × World σ) α}
    (ha : a.Lockstep (Same (Same (World.Beside part .video v.devices v'.devices)))) :
    (onVideo p a).Lockstep (Beside part .video v v') := by
  apply ha.focus
  · intro st st' h
    exact ⟨h.scheduler, rfl, h.world⟩
  · rintro st st' h ⟨c, q, w⟩ ⟨_, _, w'⟩ ⟨rfl, rfl, hworld⟩
    apply h.go hworld
    · refine Share.ext rfl h.retryArmed ?_ h.timers h.world.own
      exact congrArg (fun g => Sum.inl (c, g)) h.generation
    · exact Share.ext rfl rfl rfl rfl rfl
    · exact Share.ext rfl rfl rfl rfl rfl

/-- The same for the pacer and the pipeline of the audio. -/
theorem lockstep_onAudio (pacer : Pacer) (p : Pipeline)
    {a : Pacer.Step (Pipeline × World σ) α}
    (ha : a.Lockstep (Same (Same (World.Beside part .audio v.devices v'.devices)))) :
    (onAudio pacer p a).Lockstep (Beside part .audio v v') := by
  apply ha.focus
  · intro st st' h
    exact ⟨rfl, rfl, h.world⟩
  · rintro st st' h ⟨b, q, w⟩ ⟨_, _, w'⟩ ⟨rfl, rfl, hworld⟩
    apply h.go hworld
    · exact Share.ext rfl h.retryArmed rfl h.timers h.world.own
    · exact Share.ext rfl rfl rfl rfl rfl
    · exact Share.ext rfl rfl rfl rfl rfl

/-- The generation is part of the share of the video, so equal wake-ups are posted. -/
theorem lockstep_armVideo (delay : Nat) :
    (armVideo time delay : Step σ Unit).Lockstep (Beside part .video v v') := by
  refine Lockstep.bind (lockstep_update (fun st st' h => ?_) fun st => ?_) fun _ => ?_
  · refine Share.ext h.pipeline h.retryArmed ?_ h.timers h.world.own
    show Sum.inl (st.1.scheduler, st.1.generation + 1) = Sum.inl (_, _)
    rw [h.scheduler, h.generation]
  · exact Share.ext rfl rfl rfl rfl rfl
  · apply lockstep_get_bind
    · rintro ⟨s, w⟩ ⟨s', w'⟩ h
      have hgeneration : s.generation = s'.generation := h.generation
      simp only [hgeneration]
    · rintro ⟨s, w⟩
      exact lockstep_schedule _ rfl

/-- A new pipeline for the track. -/
theorem lockstep_setPipeline (p : Pipeline) :
    (update fun s => { s with pipelines := s.pipelines.set t (some p) } : Step σ Unit).Lockstep
      (Beside part t v v') := by
  apply lockstep_update
  · intro st st' h
    refine Share.ext ?_ h.retryArmed h.renderer h.timers h.world.own
    exact (PerTrack.get_set_self _ _ _).trans (PerTrack.get_set_self _ _ _).symm
  · intro st
    exact Share.ext (PerTrack.get_set_of_ne _ t.other_ne _) rfl rfl rfl rfl

/-- Whether a retry is armed for the track. -/
theorem lockstep_setArmed (armed : Bool) :
    (update fun s => { s with retryArmed := s.retryArmed.set t armed } : Step σ Unit).Lockstep
      (Beside part t v v') := by
  apply lockstep_update
  · intro st st' h
    refine Share.ext h.pipeline ?_ h.renderer h.timers h.world.own
    exact (PerTrack.get_set_self _ _ _).trans (PerTrack.get_set_self _ _ _).symm
  · intro st
    exact Share.ext rfl (PerTrack.get_set_of_ne _ t.other_ne _) rfl rfl rfl

/-- A new pacer is part of the share of the audio. -/
theorem lockstep_setPacer (pacer : Pacer) :
    (update fun s => { s with pacer := some pacer } : Step σ Unit).Lockstep
      (Beside part .audio v v') := by
  apply lockstep_update
  · intro st st' h
    exact Share.ext h.pipeline h.retryArmed rfl h.timers h.world.own
  · intro st
    exact Share.ext rfl rfl rfl rfl rfl

/-- A new scheduler is part of the share of the video. -/
theorem lockstep_setScheduler (scheduler : Scheduler) :
    (update fun s => { s with scheduler } : Step σ Unit).Lockstep (Beside part .video v v') := by
  apply lockstep_update
  · intro st st' h
    refine Share.ext h.pipeline h.retryArmed ?_ h.timers h.world.own
    exact congrArg (fun g => Sum.inl (scheduler, g)) h.generation
  · intro st
    exact Share.ext rfl rfl rfl rfl rfl

theorem trackOf_eq {track : Nat} (htrack : Track.ofNumber? track = some t) :
    (trackOf track : Step σ Track) = pure t := by
  unfold trackOf
  rw [htrack]

/-- An action on the pipeline of the track, if it is set up; both sessions agree about that. -/
theorem lockstep_withPipeline {track : Nat} (htrack : Track.ofNumber? track = some t)
    {a : DecoderDevice (World σ) → Pipeline.Step (World σ) α}
    (ha : (a (P.decoderDevice t)).Lockstep (Same (World.Beside part t v.devices v'.devices))) :
    (withPipeline P track a).Lockstep (Beside part t v v') := by
  unfold withPipeline
  rw [trackOf_eq htrack, pure_bind]
  apply lockstep_get_bind
  · rintro ⟨s, w⟩ ⟨s', w'⟩ h
    have hp : s.pipelines.get t = s'.pipelines.get t := h.pipeline
    simp only [hp]
  · rintro ⟨s, w⟩
    dsimp only
    split
    · exact lockstep_onPipeline _ ha
    · exact lockstep_throw _

end Parts

/-! ## Messages -/

section Messages

variable (hP : P.Separate part)
include hP

/-- A slot is returned to the decoder of the track. -/
theorem lockstep_giveBack (kind : ReturnKind) (slot : Nat) :
    (giveBack P t kind slot).Lockstep (Same (World.Beside part t v.devices v'.devices)) :=
  Pipeline.lockstep_returnOutput hP.decoderDevice slot kind

/-- The pipeline that is started is not yet a part of the session. -/
theorem lockstep_startPipeline (format : MediaFormat) :
    (startPipeline P t format).Lockstep (Beside part t v v') := by
  refine (lockstep_onDevices (hP.createDecoder t format)).bind fun answer =>
    (lockstep_ofExcept _).bind fun _ => ?_
  rintro ⟨s, w⟩ ⟨s', w'⟩ h
  -- so its run is followed by hand, to success or to a fault
  have hrun := Pipeline.lockstep_configure (hP.decoderDevice (t := t)) format (t = .video)
    ({ track := t.number }, w) ({ track := t.number }, w') ⟨rfl, h.world⟩
  obtain ⟨_, ⟨p, w₁⟩, ⟨_, w₁'⟩, heq, heq', rfl, hworld⟩ |
    ⟨e, ⟨_, w₁⟩, ⟨_, w₁'⟩, heq, heq', -, hworld⟩ := hrun.cases
  · simp only [get_bind_apply, heq, heq']
    exact ⟨rfl, h.go hworld h.own rfl rfl⟩
  · simp only [get_bind_apply, heq, heq']
    exact ⟨rfl, h.go hworld h.own rfl rfl⟩

/-- A track is set up with its own decoder, and the audio with its output. -/
theorem lockstep_setFormat {track : Nat} (htrack : Track.ofNumber? track = some t)
    (format : MediaFormat) : (setFormat P track format).Lockstep (Beside part t v v') := by
  unfold setFormat
  rw [trackOf_eq htrack, pure_bind]
  apply lockstep_get_bind
  -- whether the track is set up is seen in its share
  · rintro ⟨s, w⟩ ⟨s', w'⟩ h
    have hp : s.pipelines.get t = s'.pipelines.get t := h.pipeline
    simp only [hp]
  · rintro ⟨s, w⟩
    refine lockstep_ite (lockstep_throw _) ((lockstep_startPipeline hP format).bind fun p => ?_)
    cases t with
    | video => exact lockstep_setPipeline p
    | audio =>
      exact (lockstep_onDevices (hP.createAudio format)).bind fun _ =>
        (lockstep_ofExcept _).bind fun _ => (lockstep_setPacer {}).bind fun _ =>
          lockstep_setPipeline p

/-- An output goes to the renderer of its track. -/
theorem lockstep_outputReady {track : Nat} (htrack : Track.ofNumber? track = some t) (slot : Nat)
    (pts : Int) (payload : List UInt8) :
    (outputReady P now track slot pts payload).Lockstep (Beside part t v v') := by
  refine (lockstep_withPipeline htrack (Pipeline.lockstep_outputReady slot pts payload)).bind
    fun output => ?_
  rw [trackOf_eq htrack, pure_bind]
  cases t with
  | video =>
    apply lockstep_get_bind
    · rintro ⟨s, w⟩ ⟨s', w'⟩ h
      have hscheduler : s.scheduler = s'.scheduler := h.scheduler
      simp only [hscheduler]
    · rintro ⟨s, w⟩
      dsimp only
      obtain ⟨wait, scheduler⟩ := s.scheduler.enqueue output now.frames
      refine (lockstep_setScheduler scheduler).bind fun _ => ?_
      cases wait with
      | none => exact lockstep_pure _
      | some delay => exact lockstep_armVideo delay
  | audio =>
    apply lockstep_get_bind
    · rintro ⟨s, w⟩ ⟨s', w'⟩ h
      have hpacer : s.pacer = s'.pacer := h.pacer
      simp only [hpacer]
    · rintro ⟨s, w⟩
      dsimp only
      split
      · exact lockstep_throw _
      -- the pacer runs on the devices alone, without the pipeline
      · refine Lockstep.bind ?_ fun wait => ?_
        · apply (Pacer.lockstep_enqueue hP.audioDevice output).focus
          · intro st st' h
            exact ⟨rfl, h.world⟩
          · rintro st st' h ⟨b, w⟩ ⟨_, w'⟩ ⟨rfl, hworld⟩
            apply h.go hworld
            · exact Share.ext h.pipeline h.retryArmed rfl h.timers h.world.own
            · exact Share.ext rfl rfl rfl rfl rfl
            · exact Share.ext rfl rfl rfl rfl rfl
        · cases wait with
          | none => exact lockstep_pure _
          | some delay => exact lockstep_schedule delay rfl

/-- A push uses the pacer, the pipeline and the devices of the audio. -/
theorem lockstep_pushAudio : (pushAudio P now).Lockstep (Beside part .audio v v') := by
  apply lockstep_get_bind
  -- pacer and pipeline are those of the share, so both runs take the same branch
  · rintro ⟨s, w⟩ ⟨s', w'⟩ h
    have hp : s.pipelines.audio = s'.pipelines.audio := h.pipeline
    have hpacer : s.pacer = s'.pacer := h.pacer
    simp only [hp, hpacer]
  · rintro ⟨s, w⟩
    dsimp only
    split
    · refine Lockstep.bind ?_ fun wait => ?_
      · exact lockstep_onAudio _ _
          (Pacer.lockstep_push hP.audioDevice.onSecond (lockstep_giveBack hP .release))
      · cases wait with
        | none => exact lockstep_pure _
        | some delay => exact lockstep_schedule delay rfl
    · exact lockstep_pure _

/-- A wake-up uses the scheduler, the pipeline and the decoder of the video. -/
theorem lockstep_renderVideo (generation : Nat) :
    (renderVideo P now generation).Lockstep (Beside part .video v v') := by
  apply lockstep_get_bind
  -- the generation is in the share, so a wake-up is obeyed in both runs or in neither
  · rintro ⟨s, w⟩ ⟨s', w'⟩ h
    have hp : s.pipelines.video = s'.pipelines.video := h.pipeline
    have hg : s.generation = s'.generation := h.generation
    simp only [hp, hg]
  · rintro ⟨s, w⟩
    refine lockstep_ite (lockstep_pure _) ?_
    split
    · exact lockstep_pure _
    · refine Lockstep.bind ?_ fun wait => ?_
      · exact lockstep_onVideo _ (Scheduler.lockstep_renderDue (lockstep_giveBack hP .render)
          now.frames)
      · cases wait with
        | none => exact lockstep_pure _
        | some delay => exact lockstep_armVideo delay

omit hP in
/-- The retry that is disarmed is that of the track. -/
theorem lockstep_disarmRetry {track : Nat} (htrack : Track.ofNumber? track = some t) :
    (disarmRetry track : Step σ Unit).Lockstep (Beside part t v v') := by
  unfold disarmRetry
  rw [htrack]
  exact lockstep_setArmed false

/-- A message of the track is dispatched alike where the shares of the track are equal, and leaves
the other track alone. -/
theorem dispatch_lockstep {m : Message} (hm : m.track? = some t) :
    (dispatch P now m).Lockstep (Beside part t v v') := by
  cases m with
  | setFormat track format => exact lockstep_setFormat hP hm format
  | queueUnit track unit =>
    -- the count of units is in no share, so it may differ
    refine Lockstep.bind (lockstep_update (fun st st' h => ?_) fun st => ?_) fun _ => ?_
    · exact Share.ext h.pipeline h.retryArmed h.renderer h.timers h.world.own
    · exact Share.ext rfl rfl rfl rfl rfl
    · exact lockstep_withPipeline hm (Pipeline.lockstep_submit hP.decoderDevice unit)
  | inputsAvailable track slots =>
    exact lockstep_withPipeline (a := fun device => Pipeline.inputsAvailable device slots) hm
      (Pipeline.lockstep_inputsAvailable hP.decoderDevice slots)
  | outputReady track slot pts payload => exact lockstep_outputReady hP hm slot pts payload
  | pushAudio =>
    cases hm
    exact lockstep_pushAudio hP
  | retryDecoder track =>
    exact (lockstep_disarmRetry hm).bind fun _ =>
      lockstep_withPipeline hm (Pipeline.lockstep_retry hP.decoderDevice)
  | renderVideo generation =>
    cases hm
    exact lockstep_renderVideo hP generation
  | shutdown => cases hm

end Messages

/-- A retry is asked for alike. -/
theorem lockstep_scheduleRetry :
    (scheduleRetry time t : Step σ Unit).Lockstep (Beside part t v v') := by
  apply lockstep_get_bind
  · rintro ⟨s, w⟩ ⟨s', w'⟩ h
    have hp : s.pipelines.get t = s'.pipelines.get t := h.pipeline
    have harmed : s.retryArmed.get t = s'.retryArmed.get t := h.retryArmed
    simp only [hp, harmed]
  · rintro ⟨s, w⟩
    dsimp only
    split
    · exact lockstep_pure _
    · refine (lockstep_onPipeline _ Pipeline.lockstep_takeRetry).bind fun busy => ?_
      exact lockstep_ite ((lockstep_setArmed true).bind fun _ =>
        lockstep_schedule _ (Track.ofNumber?_number t)) (lockstep_pure _)

end Session

end Playout
