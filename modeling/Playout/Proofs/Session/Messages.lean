import Playout.Proofs.Audio.Pacer
import Playout.Proofs.Decode.Ownership
import Playout.Proofs.Session.Basic
import Playout.Proofs.Video.Scheduler

/-!
# What a message does

One rule for each message that does more than run an action on a pipeline: where it leaves the
session, from what the pipeline and the renderer of its track do. No other module opens these
messages.
-/

namespace Playout.Session

open Playout.Action

variable {σ : Type} {P : Platform σ} {now : Readings} {clock : Int} {s : Session} {w : World σ}
  {Q : Unit → Session × World σ → Prop} {E : Fault → Session × World σ → Prop}

/-! ## How messages change a session -/

/-- The pipeline of a track goes on as `p`. -/
def withTrack (s : Session) (t : Track) (p : Pipeline) : Session :=
  { s with pipelines := s.pipelines.set t (some p) }

/-- The video goes on with another renderer, and with the pipeline behind it. -/
def withVideo (s : Session) (v : Scheduler) (p : Pipeline) : Session :=
  { s with scheduler := v, pipelines := s.pipelines.set .video (some p) }

/-- The same for the audio. -/
def withAudio (s : Session) (pacer : Pacer) (p : Pipeline) : Session :=
  { s with pacer := some pacer, pipelines := s.pipelines.set .audio (some p) }

/-- A push is posted, if one is asked for. -/
def postPush (now : Int) (wait : Option Nat) (s : Session) : Session :=
  match wait with
  | none => s
  | some delay => { s with timers := s.timers.schedule (now + delay) .pushAudio }

/-- A wake-up for the video is posted, if one is asked for, and replaces the one before. -/
def postWakeUp (now : Int) (wait : Option Nat) (s : Session) : Session :=
  match wait with
  | none => s
  | some delay =>
    { s with
      generation := s.generation + 1
      timers := s.timers.schedule (now + delay) (.renderVideo (s.generation + 1)) }

section Posting

variable (wait : Option Nat)

@[simp] theorem postPush_pipelines : (postPush clock wait s).pipelines = s.pipelines := by
  cases wait <;> rfl

@[simp] theorem postPush_scheduler : (postPush clock wait s).scheduler = s.scheduler := by
  cases wait <;> rfl

@[simp] theorem postPush_pacer : (postPush clock wait s).pacer = s.pacer := by
  cases wait <;> rfl

@[simp] theorem postPush_stopped : (postPush clock wait s).stopped = s.stopped := by
  cases wait <;> rfl

@[simp] theorem postWakeUp_pipelines : (postWakeUp clock wait s).pipelines = s.pipelines := by
  cases wait <;> rfl

@[simp] theorem postWakeUp_scheduler : (postWakeUp clock wait s).scheduler = s.scheduler := by
  cases wait <;> rfl

@[simp] theorem postWakeUp_pacer : (postWakeUp clock wait s).pacer = s.pacer := by
  cases wait <;> rfl

@[simp] theorem postWakeUp_stopped : (postWakeUp clock wait s).stopped = s.stopped := by
  cases wait <;> rfl

end Posting

/-! ## Rules -/

/-- Two optional values that are not both there. -/
theorem none_or_none {α β : Type} {a : Option α} {b : Option β}
    (h : ∀ x y, a = some x → b = some y → False) : a = none ∨ b = none := by
  cases a with
  | none => exact Or.inl rfl
  | some x =>
    cases b with
    | none => exact Or.inr rfl
    | some y => exact (h x y rfl rfl).elim

/-- If a track cannot be set up, the session stays as it was. Otherwise the track gets the pipeline
of a decoder that was configured and started, and the audio track a renderer too. What holds of the
world all along is `K`. -/
theorem ends_setFormat_keeping {track : Nat} {format : MediaFormat} {C : Pipeline → Prop}
    {F : Fault → Prop} {K : World σ → Prop} (hworld : K w)
    (hcreate : ∀ t w, K w → K { w with devices := (P.createDecoder t format w.devices).2 })
    (houtput : ∀ w, K w → K { w with devices := (P.createAudio format w.devices).2 })
    (hconfigure : ∀ t w, K w →
      (Pipeline.configure (P.decoderDevice t) format (t = .video)).Ends
        ({ track := t.number }, w) (fun _ r => C r.1 ∧ K r.2) fun e r => F e ∧ K r.2)
    (hunknown : F (.unknownTrack track)) (hset : F (.alreadyConfigured track))
    (hdecoder : ∀ t d e, (P.createDecoder t format d).1 = .error e → F e)
    (haudio : ∀ d e, (P.createAudio format d).1 = .error e → F e)
    (hdone : ∀ t p w, s.pipelines.get t = none → C p → K w →
      Q () ({ s with
        pacer := if t = .audio then some {} else s.pacer
        pipelines := s.pipelines.set t (some p) }, w)) :
    (setFormat P track format).Ends (s, w) Q fun e st => F e ∧ st.1 = s ∧ K st.2 := by
  simp only [setFormat, ends_bind]
  refine ends_trackOf track (fun t _ => ?_) fun _ => ⟨hunknown, rfl, hworld⟩
  simp only [ends_get, ends_ite, ends_bind, ends_throw]
  split
  · exact ⟨hset, trivial, hworld⟩
  next hunset =>
  have hnone : s.pipelines.get t = none := by simpa using hunset
  have hstart : (startPipeline P t format).Ends (s, w) (fun p st => C p ∧ st.1 = s ∧ K st.2)
      fun e st => F e ∧ st.1 = s ∧ K st.2 := by
    simp only [startPipeline, ends_bind, ends_onDevices]
    have hcreated := hcreate t w hworld
    cases hanswer : (P.createDecoder t format w.devices).1 with
    | error e => exact ⟨hdecoder t w.devices e hanswer, rfl, hcreated⟩
    | ok x =>
      simp only [ends_ofExcept_ok, ends_get]
      have hrun := hconfigure t _ hcreated
      -- the pipeline is not yet a part of the session, so no lemma on parts applies to its run
      unfold Ends at hrun
      split at hrun
      · next heq =>
        rw [heq]
        exact ⟨hrun.1, rfl, hrun.2⟩
      · next heq =>
        rw [heq]
        exact ⟨hrun.1, rfl, hrun.2⟩
  refine hstart.imp ?_ fun _ _ he => he
  rintro p ⟨s', w'⟩ ⟨hp, rfl, hw'⟩
  have hquiet := hdone t p w' hnone hp hw'
  -- only the audio needs a renderer of its own, and creating that may still fail
  cases t with
  | video => exact hquiet
  | audio =>
    simp only [if_true, ends_onDevices, ends_update]
    cases hanswer : (P.createAudio format w'.devices).1 with
    | error e => exact ⟨haudio w'.devices e hanswer, rfl, houtput w' hw'⟩
    | ok x => exact hdone .audio p _ hnone hp (houtput w' hw')

/-- The same where nothing is known of the world. -/
theorem ends_setFormat {track : Nat} {format : MediaFormat} {C : Pipeline → Prop}
    {F : Fault → Prop}
    (hconfigure : ∀ t w, (Pipeline.configure (P.decoderDevice t) format (t = .video)).Ends
      ({ track := t.number }, w) (fun _ r => C r.1) fun e _ => F e)
    (hunknown : F (.unknownTrack track)) (hset : F (.alreadyConfigured track))
    (hdecoder : ∀ t d e, (P.createDecoder t format d).1 = .error e → F e)
    (haudio : ∀ d e, (P.createAudio format d).1 = .error e → F e)
    (hdone : ∀ t p w, s.pipelines.get t = none → C p →
      Q () ({ s with
        pacer := if t = .audio then some {} else s.pacer
        pipelines := s.pipelines.set t (some p) }, w)) :
    (setFormat P track format).Ends (s, w) Q fun e st => F e ∧ st.1 = s :=
  (ends_setFormat_keeping (K := fun _ => True) trivial (fun _ _ h => h) (fun _ h => h)
    (fun t w _ => (hconfigure t w).imp (fun _ _ h => ⟨h, trivial⟩) fun _ _ h => ⟨h, trivial⟩)
    hunknown hset hdecoder haudio fun t p w hnone hp _ => hdone t p w hnone hp).imp
    (fun _ _ h => h) fun _ _ h => ⟨h.1, h.2.1⟩

/-- Decoded media goes to the renderer of its track, which may ask to be woken up. -/
theorem ends_outputReady {track slot : Nat} {pts : Int} {payload : List UInt8}
    (video : ∀ p, Track.ofNumber? track = some .video → s.pipelines.get .video = some p →
      (Pipeline.outputReady slot pts payload).Ends (p, w)
        (fun output r => Q () (postWakeUp now.posting (s.scheduler.enqueue output now.frames).1
          (s.withVideo (s.scheduler.enqueue output now.frames).2 r.1), r.2))
        fun e r => E e (s.withTrack .video r.1, r.2))
    (audio : ∀ p, Track.ofNumber? track = some .audio → s.pipelines.get .audio = some p →
      (Pipeline.outputReady slot pts payload).Ends (p, w)
        (fun output r => (s.pacer = none → E (.notConfigured track) (s.withTrack .audio r.1, r.2)) ∧
          ∀ pacer, s.pacer = some pacer → (Pacer.enqueue P.audioDevice output).Ends (pacer, r.2)
            (fun wait q => Q () (postPush now.posting wait (s.withAudio q.1 r.1), q.2))
            fun e q => E e (s.withAudio q.1 r.1, q.2))
        fun e r => E e (s.withTrack .audio r.1, r.2))
    (unknown : Track.ofNumber? track = none → E (.unknownTrack track) (s, w))
    (unset : ∀ t, Track.ofNumber? track = some t → s.pipelines.get t = none →
      E (.notConfigured track) (s, w)) :
    (outputReady P now track slot pts payload).Ends (s, w) Q E := by
  simp only [outputReady, ends_bind]
  refine ends_withPipeline track _ (fun t p ht hp => ?_) unknown unset
  rw [ends_onPipeline]
  cases t with
  | video =>
    -- the pipeline has handed the slot over, so the rest is between queue and timers
    refine (video p ht hp).imp (fun output r hr => ?_) fun _ _ he => he
    simp only [ends_trackOf_some ht, ends_bind, ends_get, ends_update]
    cases hwait : (s.scheduler.enqueue output now.frames).1 with
    | none => rw [hwait] at hr; exact hr
    | some delay => rw [hwait] at hr; exact hr
  | audio =>
    refine (audio p ht hp).imp (fun output r hr => ?_) fun _ _ he => he
    simp only [ends_trackOf_some ht, ends_bind, ends_get]
    split
    -- a pipeline without a renderer: the slot was handed over in vain
    · next hpacer => exact hr.1 hpacer
    · next pacer hpacer =>
      simp only [ends_bind, ends_focus]
      refine (hr.2 pacer hpacer).imp (fun wait q hq => ?_) fun _ _ he => he
      cases wait <;> exact hq

/-- A push runs if there is audio and a pipeline for it, and its answer is posted. -/
theorem ends_pushAudio (idle : s.pacer = none ∨ s.pipelines.get .audio = none → Q () (s, w))
    (pushed : ∀ pacer p, s.pacer = some pacer → s.pipelines.get .audio = some p →
      (Pacer.push P.audioDevice.onSecond (giveBack P .audio .release)).Ends (pacer, p, w)
        (fun wait r => Q () (postPush now.posting wait (s.withAudio r.1 r.2.1), r.2.2))
        fun e r => E e (s.withAudio r.1 r.2.1, r.2.2)) :
    (pushAudio P now).Ends (s, w) Q E := by
  simp only [pushAudio, ends_bind, ends_get]
  split
  · next pacer p hpacer hp =>
    simp only [ends_bind, ends_onAudio]
    refine (pushed pacer p hpacer hp).imp (fun wait r hr => ?_) fun _ _ he => he
    cases wait <;> exact hr
  · next hnot => exact idle (none_or_none hnot)

/-- A wake-up counts if it is of this generation and the video is set up. -/
theorem ends_renderVideo {generation : Nat}
    (idle : generation ≠ s.generation ∨ s.pipelines.get .video = none → Q () (s, w))
    (rendered : ∀ p, generation = s.generation → s.pipelines.get .video = some p →
      (Scheduler.renderDue (giveBack P .video .render) now.frames).Ends (s.scheduler, p, w)
        (fun wait r => Q () (postWakeUp now.posting wait (s.withVideo r.1 r.2.1), r.2.2))
        fun e r => E e (s.withVideo r.1 r.2.1, r.2.2)) :
    (renderVideo P now generation).Ends (s, w) Q E := by
  simp only [renderVideo, ends_bind, ends_get, ends_ite, ends_pure]
  split
  -- a wake-up that has been replaced
  · next hother => exact idle (Or.inl hother)
  · next hthis =>
    split
    · next hp => exact idle (Or.inr hp)
    · next p hp =>
      simp only [ends_bind, ends_onVideo]
      refine (rendered p (of_not_not hthis) hp).imp (fun wait r hr => ?_) fun _ _ he => he
      cases wait <;> exact hr

/-- A retry that comes is not armed any more. One for a track that does not exist never was. -/
theorem ends_disarmRetry {track : Nat}
    (known : ∀ t : Track, track = t.number →
      Q () ({ s with retryArmed := s.retryArmed.set t false }, w))
    (unknown : (∀ t : Track, track ≠ t.number) → Q () (s, w)) :
    (disarmRetry track).Ends (s, w) Q E := by
  unfold disarmRetry
  split
  · next t htrack => exact known t (Track.eq_number_of_ofNumber? htrack)
  · next hnone =>
    apply unknown
    rintro t rfl
    rw [Track.ofNumber?_number] at hnone
    cases hnone

/-- Asking for a retry never fails: it clears the mark of the pipeline, and arms the timer if the
mark was set and the timer is not armed. -/
theorem ends_scheduleRetry {t : Track} (unset : s.pipelines.get t = none → Q () (s, w))
    (kept : ∀ p, s.pipelines.get t = some p → p.retryNeeded = false ∨ s.retryArmed.get t = true →
      Q () (s.withTrack t { p with retryNeeded := false }, w))
    (armed : ∀ p, s.pipelines.get t = some p → p.retryNeeded = true →
      s.retryArmed.get t = false →
      Q () ({ s.withTrack t { p with retryNeeded := false } with
        retryArmed := s.retryArmed.set t true
        timers := s.timers.schedule (clock + retryDelay) (.retryDecoder t.number) }, w)) :
    (scheduleRetry clock t).Ends (s, w) Q E := by
  simp only [scheduleRetry, ends_bind, ends_get]
  split
  · next hp => exact unset hp
  · next p hp =>
    simp only [ends_bind, ends_onPipeline, Pipeline.ends_takeRetry, ends_ite, ends_update,
      ends_schedule, ends_pure]
    -- armed only where the mark is set and no timer waits
    cases hneeded : p.retryNeeded with
    | false => exact kept p hp (Or.inl hneeded)
    | true =>
      cases harmed : s.retryArmed.get t with
      | true => exact kept p hp (Or.inr harmed)
      | false => exact armed p hp hneeded harmed

/-! ## The parts of a teardown -/

/-- The scheduler gives back the frames that wait, if the video is set up. -/
theorem ends_releaseVideo (unset : s.pipelines.get .video = none → Q () (s, w))
    (released : ∀ p, s.pipelines.get .video = some p →
      (Scheduler.releaseAll (giveBack P .video .release)).Ends (s.scheduler, p, w)
        (fun _ r => Q () (s.withVideo r.1 r.2.1, r.2.2))
        fun e r => E e (s.withVideo r.1 r.2.1, r.2.2)) :
    (releaseVideo P).Ends (s, w) Q E := by
  simp only [releaseVideo, ends_bind, ends_get]
  split
  · next p hp =>
    rw [ends_onVideo]
    exact released p hp
  · next hp => exact unset hp

/-- The pacer gives back the buffers that wait, if the audio is set up. -/
theorem ends_releaseAudio (unset : s.pacer = none ∨ s.pipelines.get .audio = none → Q () (s, w))
    (released : ∀ pacer p, s.pacer = some pacer → s.pipelines.get .audio = some p →
      (Pacer.releaseAll (giveBack P .audio .release)).Ends (pacer, p, w)
        (fun _ r => Q () (s.withAudio r.1 r.2.1, r.2.2))
        fun e r => E e (s.withAudio r.1 r.2.1, r.2.2)) :
    (releaseAudio P).Ends (s, w) Q E := by
  simp only [releaseAudio, ends_bind, ends_get]
  split
  · next pacer p hpacer hp =>
    rw [ends_onAudio]
    exact released pacer p hpacer hp
  · next hnot => exact unset (none_or_none hnot)

/-- The pipeline of a track is torn down, if it is set up. -/
theorem ends_teardownPipeline {t : Track} (unset : s.pipelines.get t = none → Q () (s, w))
    (ended : ∀ p, s.pipelines.get t = some p →
      (Pipeline.teardown (P.decoderDevice t)).Ends (p, w)
        (fun _ r => Q () (s.withTrack t r.1, r.2)) fun e r => E e (s.withTrack t r.1, r.2)) :
    (teardownPipeline P t).Ends (s, w) Q E := by
  simp only [teardownPipeline, ends_bind, ends_get]
  split
  · next p hp =>
    rw [ends_onPipeline]
    exact ended p hp
  · next hp => exact unset hp

end Playout.Session
