import Playout.Proofs.Session.Teardown
import Playout.Proofs.Session.WakeUps

/-!
# What every session is like between two messages

Whatever the timers and the mailbox hold, wake-ups that nobody asked for among it, a session that
runs is `Settled` between two messages: nothing is marked for a retry, only a track that is set up
has a retry armed, the audio track has its renderer, and the counts that others see are right.

    dispatch_fitted     : a message keeps the tracks and their renderers together
    afterEvents_settled : after any run the session has stopped, or it is settled
-/

namespace Playout.Session

open Playout.Action

variable {σ : Type} {P : Platform σ} {now : Readings} {time : Int} {s : Session} {w : World σ}
  {t : Track}
  {p : Pipeline}

/-- Retries are armed for tracks that are set up, and the audio track comes with its renderer. -/
structure Fitted (s : Session) : Prop where
  armed : ∀ t, s.retryArmed.get t = true → (s.pipelines.get t).isSome = true
  paired : s.pacer.isSome = (s.pipelines.get .audio).isSome

/-- A session that runs, between two messages. -/
structure Settled (s : Session) : Prop where
  fitted : Fitted s
  unmarked : ∀ t, Unmarked t s
  published : s.published = s.counts

namespace Fitted

/-- Only which tracks are set up, have a retry armed or a renderer matters. -/
theorem congr {s' : Session} (h : Fitted s)
    (hpipelines : ∀ t, (s'.pipelines.get t).isSome = (s.pipelines.get t).isSome)
    (hpacer : s'.pacer.isSome = s.pacer.isSome)
    (harmed : ∀ t, s'.retryArmed.get t = true → s.retryArmed.get t = true) : Fitted s' := by
  refine ⟨fun t ht => ?_, ?_⟩
  · rw [hpipelines]
    exact h.armed t (harmed t ht)
  · rw [hpacer, hpipelines]
    exact h.paired

/-- A pipeline that goes on leaves the tracks fitted. -/
theorem withTrack (h : Fitted s) (hp : s.pipelines.get t = some p) (q : Pipeline) :
    Fitted (s.withTrack t q) :=
  h.congr (PerTrack.isSome_renew hp q) rfl fun _ => id

theorem withVideo (h : Fitted s) (hp : s.pipelines.get .video = some p) (v : Scheduler)
    (q : Pipeline) : Fitted (s.withVideo v q) :=
  h.congr (PerTrack.isSome_renew hp q) rfl fun _ => id

theorem withAudio (h : Fitted s) (hp : s.pipelines.get .audio = some p) (pacer : Pacer)
    (q : Pipeline) : Fitted (s.withAudio pacer q) := by
  refine h.congr (PerTrack.isSome_renew hp q) ?_ fun _ => id
  rw [h.paired, hp]
  rfl

/-- A push that is posted is no retry. -/
theorem postPush (h : Fitted s) (wait : Option Nat) : Fitted (postPush time wait s) := by
  cases wait <;> exact ⟨h.armed, h.paired⟩

/-- A wake-up that is posted is no retry. -/
theorem postWakeUp (h : Fitted s) (wait : Option Nat) : Fitted (postWakeUp time wait s) := by
  cases wait <;> exact ⟨h.armed, h.paired⟩

end Fitted

/-! ## Messages -/

/-- Whatever is done to a pipeline, its track stays set up. -/
theorem withPipeline_fitted {a : DecoderDevice (World σ) → Pipeline.Step (World σ) Unit}
    (h : Fitted s) (track : Nat) :
    (withPipeline P track a).Ends (s, w) (fun _ r => Fitted r.1) fun _ r => Fitted r.1 := by
  refine ends_withPipeline track a (fun t p _ hp => ?_) (fun _ => h) fun _ _ _ => h
  rw [ends_onPipeline]
  exact ends_of_forall (fun _ r => h.withTrack hp r.1) fun _ r => h.withTrack hp r.1

/-- A track that gets set up gets all that belongs to it, or stays as it was. -/
theorem setFormat_fitted (h : Fitted s) (track : Nat) (format : MediaFormat) :
    (setFormat P track format).Ends (s, w) (fun _ r => Fitted r.1) fun _ r => Fitted r.1 := by
  refine (ends_setFormat (C := fun _ => True) (F := fun _ => True) (fun _ _ => ends_true _) trivial
    trivial (fun _ _ _ _ => trivial) (fun _ _ _ => trivial) fun t p w _ _ => ?_).imp
    (fun _ _ hr => hr) fun _ _ hr => hr.2 ▸ h
  refine ⟨fun u hu => ?_, ?_⟩
  · by_cases hut : u = t
    · rw [hut, PerTrack.get_set_self]
      rfl
    · rw [s.pipelines.get_set_of_ne hut]
      exact h.armed u hu
  · cases t with
    | video => exact h.paired
    | audio => rfl

/-- An output changes what is held, and nothing about which tracks are set up. -/
theorem outputReady_fitted (h : Fitted s) (track slot : Nat) (pts : Int) (payload : List UInt8) :
    (outputReady P now track slot pts payload).Ends (s, w) (fun _ r => Fitted r.1)
      fun _ r => Fitted r.1 := by
  refine ends_outputReady (fun p _ hp => ?_) (fun p _ hp => ?_) (fun _ => h) fun _ _ _ => h
  · exact ends_of_forall (fun _ r => (h.withVideo hp _ r.1).postWakeUp _)
      fun _ r => h.withTrack hp r.1
  · refine ends_of_forall (fun _ r => ⟨fun _ => h.withTrack hp r.1, fun pacer _ => ?_⟩)
      fun _ r => h.withTrack hp r.1
    exact ends_of_forall (fun _ q => (h.withAudio hp q.1 r.1).postPush _)
      fun _ q => h.withAudio hp q.1 r.1

theorem pushAudio_fitted (h : Fitted s) :
    (pushAudio P now).Ends (s, w) (fun _ r => Fitted r.1) fun _ r => Fitted r.1 :=
  ends_pushAudio (fun _ => h) fun _ _ _ hp =>
    ends_of_forall (fun _ r => (h.withAudio hp r.1 r.2.1).postPush _)
      fun _ r => h.withAudio hp r.1 r.2.1

theorem renderVideo_fitted (h : Fitted s) (generation : Nat) :
    (renderVideo P now generation).Ends (s, w) (fun _ r => Fitted r.1) fun _ r => Fitted r.1 :=
  ends_renderVideo (fun _ => h) fun _ _ hp =>
    ends_of_forall (fun _ r => (h.withVideo hp r.1 r.2.1).postWakeUp _)
      fun _ r => h.withVideo hp r.1 r.2.1

/-- Fewer retries are armed. -/
theorem disarmRetry_fitted (h : Fitted s) (track : Nat) :
    (disarmRetry track).Ends (s, w) (fun _ r => Fitted r.1) fun _ _ => False := by
  refine ends_disarmRetry (fun t _ => ?_) fun _ => h
  refine h.congr (fun _ => rfl) rfl fun u hu => ?_
  by_cases hut : u = t
  · rw [hut, PerTrack.get_set_self] at hu
    cases hu
  · rwa [s.retryArmed.get_set_of_ne hut] at hu

/-- The session has stopped, or its tracks are fitted. -/
def StoppedOrFitted (st : Session × World σ) : Prop := st.1.stopped = true ∨ Fitted st.1

/-- Doing what a message says keeps tracks, renderers and retries together, unless it stops the
session. -/
theorem dispatch_fitted (h : Fitted s) (m : Message) :
    (dispatch P now m).Ends (s, w) (fun _ r => StoppedOrFitted r) fun _ r => StoppedOrFitted r := by
  -- for all messages but a shutdown it is enough that the session stays fitted
  have hrunning {a : Step σ Unit}
      (ha : a.Ends (s, w) (fun _ r => Fitted r.1) fun _ r => Fitted r.1) :
      a.Ends (s, w) (fun _ r => StoppedOrFitted r) fun _ r => StoppedOrFitted r :=
    ha.imp (fun _ _ hr => Or.inr hr) fun _ _ hr => Or.inr hr
  cases m with
  | setFormat track format => exact hrunning (setFormat_fitted h track format)
  | queueUnit track unit =>
    apply hrunning
    -- nothing that is fitted depends on the count of units
    have hcounted : Fitted { s with accessUnits := s.accessUnits + 1 } := ⟨h.armed, h.paired⟩
    simp only [dispatch, ends_bind, ends_update]
    exact withPipeline_fitted hcounted track
  | inputsAvailable track slots =>
    exact hrunning (withPipeline_fitted (a := (Pipeline.inputsAvailable · slots)) h track)
  | outputReady track slot pts payload =>
    exact hrunning (outputReady_fitted h track slot pts payload)
  | pushAudio => exact hrunning (pushAudio_fitted h)
  | retryDecoder track =>
    apply hrunning
    simp only [dispatch, ends_bind]
    exact (disarmRetry_fitted h track).imp (fun _ _ hr => withPipeline_fitted hr track)
      fun _ _ he => he.elim
  | renderVideo generation => exact hrunning (renderVideo_fitted h generation)
  | shutdown =>
    exact (teardown_stops (s, w)).imp (fun _ _ hr => Or.inl hr) fun _ _ hr => Or.inl hr

/-- A retry is armed only for a track that has a pipeline to be marked. -/
theorem scheduleRetry_fitted (h : Fitted s) (t : Track) :
    (scheduleRetry time t).Ends (s, w) (fun _ r => Fitted r.1) fun _ _ => False := by
  refine ends_scheduleRetry (fun _ => h) (fun p hp _ => h.withTrack hp _) fun p hp _ _ => ?_
  have hset := h.withTrack hp { p with retryNeeded := false }
  refine ⟨fun u hu => ?_, hset.paired⟩
  by_cases hut : u = t
  · subst hut
    exact (PerTrack.isSome_renew hp _ u).trans (by rw [hp]; rfl)
  · rw [s.retryArmed.get_set_of_ne hut] at hu
    exact hset.armed u hu

/-- Nothing is marked for a retry, so none is asked for. -/
theorem scheduleRetry_unmarked {st : Session × World σ} (h : Unmarked t st.1) :
    scheduleRetry time t st = .ok () st := by
  obtain ⟨s, w⟩ := st
  apply ends_eq_iff.mp
  refine ends_scheduleRetry (fun _ => ⟨rfl, rfl⟩) (fun p hp _ => ⟨rfl, ?_⟩) fun p hp hmark _ => ?_
  -- clearing a mark that is not set changes nothing
  · have hsame : ({ p with retryNeeded := false } : Pipeline) = p := by
      rw [← h p hp]
    show (s.withTrack t { p with retryNeeded := false }, w) = (s, w)
    rw [hsame, withTrack, ← hp, PerTrack.set_get_self]
  · rw [h p hp] at hmark
    cases hmark

/-- Where nothing is marked, the retries change nothing. -/
theorem retried_unmarked {st : Session × World σ} (h : ∀ t, Unmarked t st.1) :
    retried now st = st := by
  have hsame (time : Int) (t : Track) : (scheduleRetry time t).stateAfter st = st := by
    rw [Action.stateAfter, scheduleRetry_unmarked (h t)]
  rw [retried, hsame, hsame]

/-! ## Every run -/

/-- The session has stopped, or it is settled. -/
def StoppedOrSettled (st : Session × World σ) : Prop := st.1.stopped = true ∨ Settled st.1

/-- A session that has not stopped is settled. -/
theorem StoppedOrSettled.settled {st : Session × World σ} (h : StoppedOrSettled st)
    (hrunning : st.1.stopped = false) : Settled st.1 :=
  h.resolve_left fun heq => by simp [hrunning] at heq

/-- After the retries no mark is left, and the counts are right when they are shown. -/
theorem concludes_settled {K : Session × World σ → Prop} {st : Session × World σ}
    (h : StoppedOrFitted st) (hK : ∀ t, StoppedOrSettled t → K t) : Concludes now K st := by
  unfold Concludes
  split
  · next hstop => exact hK (shown st) (Or.inl hstop)
  next hrun =>
  have hfitted : Fitted st.1 := h.resolve_left hrun
  refine ((scheduleRetry_fitted hfitted .video).and (scheduleRetry_unmarks .video)).imp
    ?_ fun _ _ he => he.1
  -- one retry after the other: the second one leaves the video unmarked
  rintro _ st₁ ⟨hfitted₁, hvideo, -⟩
  refine ((scheduleRetry_fitted hfitted₁ .audio).and (scheduleRetry_unmarks .audio)).imp
    ?_ fun _ _ he => he.1
  rintro _ st₂ ⟨hfitted₂, haudio, hothers⟩
  refine hK (shown st₂) (Or.inr ⟨⟨hfitted₂.armed, hfitted₂.paired⟩, fun t => ?_, rfl⟩)
  cases t with
  | video => exact hothers .video (by decide) hvideo
  | audio => exact haudio

/-- A session is settled again after every message. -/
theorem handle_settled (P : Platform σ) (now : Readings) (m : Message) :
    (handle P now m).Keeps StoppedOrSettled := by
  rintro ⟨s, w⟩ h
  cases hstopped : s.stopped with
  | true => exact (ends_handle_stopped hstopped).mpr (Or.inl hstopped)
  | false =>
  apply ends_handle_of hstopped
  refine (dispatch_fitted (h.settled hstopped).fitted m).imp
    (fun _ t ht => concludes_settled ht fun _ h => h) fun e t ht => concludes_settled ht ?_
  intro t ht
  split
  · exact (teardown_stops t).imp (fun _ _ h => Or.inl h) fun _ _ h => Or.inl h
  · exact ht

/-- The timers and the mailbox may hold anything. -/
theorem settled_throughout (P : Platform σ) : Throughout P StoppedOrSettled where
  due now := by
    intro st h
    rw [ends_takeDue]
    split
    · exact h
    · exact h.imp id fun hs => ⟨⟨hs.fitted.armed, hs.fitted.paired⟩, hs.unmarked, hs.published⟩
  mail := by
    intro st h
    rw [ends_takeMail]
    split
    · exact h
    · exact h
  message := handle_settled P
  teardown := by
    intro st _
    exact (teardown_stops st).imp (fun _ _ h => Or.inl h) fun _ _ h => Or.inl h

/-- A new session is settled. -/
theorem new_settled (tolerance : Int) : Settled (new tolerance) where
  fitted := ⟨fun t => by cases t <;> exact nofun, rfl⟩
  unmarked := (new_atRest tolerance).2
  published := rfl

/-- After any run the session has stopped, or it is settled. -/
theorem afterEvents_settled (P : Platform σ) (tolerance : Int) (devices : σ)
    (events : List (Event σ)) : StoppedOrSettled (afterEvents P tolerance devices events) := by
  apply afterEvents_induction
  · exact Or.inr (new_settled tolerance)
  · intro e _ st h
    exact (settled_throughout P.recorded).perform (fun _ _ _ _ h => h) e h

end Playout.Session
