import Playout.Proofs.Session.Awaited
import Playout.Proofs.Session.Teardown
import Playout.Proofs.Timer.Queue

/-!
# Wake-ups are neither lost nor doubled

A session is `Ready` if it expects what is in its timers. Every message keeps that, as long as a
wake-up is only handled when it has been taken from the timers:

    dispatch_ready : Expecting (m :: s.timers.items) s → after m the session is ready, or it ends

After the retries nothing is marked any more (`Unmarked`), so that all that a decoder was too busy
for has a retry under way.
-/

namespace Playout.Session

open Playout.Action

variable {σ : Type} {P : Platform σ} {now : Readings} {time : Int} {m : Message} {s : Session}
  {w : World σ} {t : Track} {p : Pipeline}

/-- The session expects what is in its timers. -/
abbrev Ready (s : Session) : Prop := Expecting s.timers.items s

/-! ## Messages -/

/-- A track that gets set up waits for nothing. -/
theorem setFormat_ready (h : Ready s) (track : Nat) (format : MediaFormat) :
    (setFormat P track format).Ends (s, w) (fun _ r => Ready r.1) fun _ r => Ready r.1 := by
  refine (ends_setFormat (C := fun p => ∀ armed, p.Heeded armed) (F := fun _ => True)
    (fun t w => Pipeline.configure_heeds format (t = .video) t.number) trivial trivial
    (fun _ _ _ _ => trivial) (fun _ _ _ => trivial) fun t p w hnone hheeded => ?_).imp
    (fun _ _ hr => hr) fun _ _ hr => hr.2 ▸ h
  have hretry := h.retry.renew (hheeded (s.retryArmed.get t))
  cases t with
  | video =>
    exact ⟨h.audio, ⟨nofun, h.video.armed, h.video.once, h.video.past⟩, hretry⟩
  | audio =>
    -- a new pacer may only stand where there was none, or its push would be forgotten
    have hpacer : s.pacer = none := by
      have hpaired := h.audio.paired
      rw [hnone] at hpaired
      simpa using hpaired
    have honce := h.audio.once
    rw [hpacer] at honce
    refine ⟨⟨rfl, fun a ha => ?_, honce⟩, h.video, hretry⟩
    cases ha
    exact fun hne => absurd rfl hne

/-- An action on a pipeline that calls for a retry when it leaves something undone keeps the session
ready. -/
theorem withPipeline_ready (h : Ready s) (track : Nat)
    {a : DecoderDevice (World σ) → Pipeline.Step (World σ) Unit}
    (ha : ∀ device p w armed, p.Heeded armed →
      (a device).Ends (p, w) (fun _ r => r.1.Heeded armed) fun e _ => e.isFatal = true) :
    (withPipeline P track a).Ends (s, w) (fun _ r => Ready r.1)
      fun e r => e.isFatal = true ∨ Ready r.1 := by
  refine ends_withPipeline track a (fun t p _ hp => ?_) (fun _ => Or.inr h)
    fun _ _ _ => Or.inr h
  rw [ends_onPipeline]
  exact (ha _ p w _ (h.retry.heeded t p hp)).imp (fun _ r hr => h.withTrack hp hr)
    fun _ _ he => Or.inl he

/-- The audio renderer has answered, and if it asked for a push, that is posted. -/
theorem ready_postPush {pacer : Pacer} {wait : Option Nat} (hasking : pacer.Asking)
    (hpushes : s.timers.items.count .pushAudio + wait.isSome.toNat = pacer.pushPending.toNat)
    (hvideo : VideoAwaited s.timers.items s.scheduler s.generation (s.pipelines.get .video).isSome)
    (hretry : RetryAwaited s.timers.items (s.pipelines.set .audio (some p)) s.retryArmed) :
    Ready (postPush time wait (s.withAudio pacer p)) := by
  have hpacer (a : Pacer) (ha : some pacer = some a) : a.Asking := by
    cases ha
    exact hasking
  cases wait with
  | none => exact ⟨⟨rfl, hpacer, hpushes⟩, hvideo, hretry⟩
  | some delay =>
    refine ⟨⟨rfl, hpacer, ?_⟩, (VideoAwaited.cons_iff (m := .pushAudio) nofun).mpr hvideo,
      (RetryAwaited.cons_iff (m := .pushAudio) nofun).mpr hretry⟩
    exact List.count_cons_self.trans hpushes

/-- The scheduler has answered, and if it asked for a wake-up, that is posted. -/
theorem ready_postWakeUp {v : Scheduler} {wait : Option Nat} (harmed : v.Armed)
    (hkept : wait = none →
      s.timers.items.count (.renderVideo s.generation) = if v.queue = [] then 0 else 1)
    (hasked : wait ≠ none → v.queue ≠ [])
    (hpast : ∀ g, .renderVideo g ∈ s.timers.items → g ≤ s.generation)
    (haudio : AudioAwaited s.timers.items s.pacer (s.pipelines.get .audio).isSome)
    (hretry : RetryAwaited s.timers.items (s.pipelines.set .video (some p)) s.retryArmed) :
    Ready (postWakeUp time wait (s.withVideo v p)) := by
  cases wait with
  | none => exact ⟨haudio, ⟨nofun, harmed, hkept rfl, hpast⟩, hretry⟩
  | some delay =>
    exact ⟨(AudioAwaited.cons_iff (m := .renderVideo _) nofun).mpr haudio,
      .arm hpast harmed (hasked nofun),
      (RetryAwaited.cons_iff (m := .renderVideo _) nofun).mpr hretry⟩

/-- An output that has to wait brings the wake-up that it waits for. -/
theorem outputReady_ready (h : Ready s) (track slot : Nat) (pts : Int) (payload : List UInt8) :
    (outputReady P now track slot pts payload).Ends (s, w) (fun _ r => Ready r.1)
      fun e r => e.isFatal = true ∨ Ready r.1 := by
  refine ends_outputReady (fun p _ hp => ?_) (fun p _ hp => ?_) (fun _ => Or.inr h)
    fun _ _ _ => Or.inr h
  · refine (Pipeline.outputReady_heeds (h.retry.heeded .video p hp) slot pts payload).imp
      (fun output r hr => ?_) fun _ _ he => Or.inl he
    -- a frame, with the wake-up of the front
    obtain ⟨harmed, hqueue, hkept⟩ := Scheduler.enqueue_arms h.video.armed output now.frames
    refine ready_postWakeUp harmed (fun hnone => ?_) (fun _ => hqueue) h.video.past h.audio
      (h.retry.renew hr)
    -- the wake-up that stays is that of the frames before
    rw [h.video.once, if_neg (hkept hnone), if_neg hqueue]
  -- a buffer of audio, with a push unless one is posted
  · obtain ⟨pacer, hpacer⟩ : ∃ pacer, s.pacer = some pacer := by
      apply Option.isSome_iff_exists.mp
      rw [h.audio.paired, hp]
      rfl
    refine (Pipeline.outputReady_heeds (h.retry.heeded .audio p hp) slot pts payload).imp
      (fun output r hr => ⟨fun hnone => ?_, fun pacer' hpacer' => ?_⟩) fun _ _ he => Or.inl he
    · rw [hnone] at hpacer
      cases hpacer
    · refine (Pacer.enqueue_asks output).imp (fun wait q hq => ?_) fun _ _ he => he
      refine ready_postPush hq.1 ?_ h.video (h.retry.renew hr)
      rw [h.audio.once, hpacer', hq.2, Option.elim_some]

/-- How the renderer of a track returns a slot: the decoder takes it, or a retry is called for. -/
theorem giveBack_heeds (P : Platform σ) (t : Track) (kind : ReturnKind) (armed : Bool) :
    Passes (giveBack P t kind) (fun _ r => r.1.Heeded armed) fun e _ => e.isFatal = true :=
  Pipeline.returnOutput_heeds kind

/-- The push in hand is the only one. -/
theorem pushAudio_ready (h : Expecting (.pushAudio :: s.timers.items) s) :
    (pushAudio P now).Ends (s, w) (fun _ r => Ready r.1)
      fun e r => e.isFatal = true ∨ Ready r.1 := by
  have honce := h.audio.once
  rw [List.count_cons_self] at honce
  have hvideo := (VideoAwaited.cons_iff (m := .pushAudio) nofun).mp h.video
  have hretry := (RetryAwaited.cons_iff (m := .pushAudio) nofun).mp h.retry
  refine ends_pushAudio (fun hidle => ?_) fun pacer p hpacer hp => ?_
  · -- without a renderer there would be no push
    have hnone : s.pacer = none := by
      rcases hidle with hnone | hunset
      · exact hnone
      · have hpaired := h.audio.paired
        rw [hunset] at hpaired
        simpa using hpaired
    rw [hnone] at honce
    cases honce
  -- at most one push is expected, and that is in hand
  · have hnone : s.timers.items.count .pushAudio = 0 := by
      have hle := Bool.toNat_le pacer.pushPending
      rw [hpacer, Option.elim_some] at honce
      omega
    refine ((Pacer.push_asks _).and (Pacer.push_owns (giveBack_heeds P .audio .release _)
      (fun _ _ _ h => h) (h.retry.heeded .audio p hp))).imp (fun wait r hr => ?_)
      fun e r hr => Or.inl ?_
    · obtain ⟨⟨hasking, hcount⟩, hheeded⟩ := hr
      refine ready_postPush hasking ?_ hvideo (hretry.renew hheeded)
      rw [hnone, hcount, Nat.zero_add]
    · rcases hr.2.2 with hfatal | ⟨reason, rfl⟩
      · exact hfatal
      · rfl

/-- A wake-up of an earlier generation is passed over, and that of this generation is the only
one. -/
theorem renderVideo_ready {generation : Nat}
    (h : Expecting (.renderVideo generation :: s.timers.items) s) :
    (renderVideo P now generation).Ends (s, w) (fun _ r => Ready r.1)
      fun e r => e.isFatal = true ∨ Ready r.1 := by
  have haudio := (AudioAwaited.cons_iff (m := .renderVideo _) nofun).mp h.audio
  have hretry := (RetryAwaited.cons_iff (m := .renderVideo _) nofun).mp h.retry
  have hpast (g : Nat) (hg : .renderVideo g ∈ s.timers.items) : g ≤ s.generation :=
    h.video.past g (List.mem_cons_of_mem _ hg)
  -- only the wake-up that counts does anything
  by_cases hthis : generation = s.generation
  · subst hthis
    obtain ⟨hqueue, hnone⟩ := h.video.in_hand
    refine ends_renderVideo (fun hidle => ?_) fun p _ hp => ?_
    · -- without a pipeline no frame would wait
      have hunset : s.pipelines.get .video = none := hidle.resolve_left fun hne => hne rfl
      exact absurd (h.video.idle (by rw [hunset]; rfl)) hqueue
    · refine ((Scheduler.renderDue_arms _ now.frames s.scheduler _).and
        (Scheduler.renderDue_owns (giveBack_heeds P .video .render _) now.frames
          (h.retry.heeded .video p hp))).imp (fun wait r hr => ?_) fun e r hr => Or.inl hr.2.2
      obtain ⟨⟨harmed, hwait⟩, hheeded⟩ := hr
      refine ready_postWakeUp harmed (fun heq => ?_) (mt hwait.mpr) hpast haudio
        (hretry.renew hheeded)
      rw [hnone, if_pos (hwait.mp heq)]
  · refine ends_renderVideo (fun _ => ?_) fun _ heq => absurd heq hthis
    have hne : Message.renderVideo generation ≠ .renderVideo s.generation := fun heq =>
      hthis (Message.renderVideo.inj heq)
    have honce := h.video.once
    rw [List.count_cons_of_ne hne] at honce
    exact ⟨haudio, ⟨h.video.idle, h.video.armed, honce, hpast⟩, hretry⟩

/-- The retry in hand is the only one of its track, and leaves nothing that is not known of. -/
theorem retryDecoder_ready {track : Nat}
    (h : Expecting (.retryDecoder track :: s.timers.items) s) :
    (dispatch P now (.retryDecoder track)).Ends (s, w) (fun _ r => Ready r.1)
      fun e r => e.isFatal = true ∨ Ready r.1 := by
  have haudio := (AudioAwaited.cons_iff (m := .retryDecoder _) nofun).mp h.audio
  have hvideo := (VideoAwaited.cons_iff (m := .retryDecoder _) nofun).mp h.video
  simp only [dispatch, ends_bind]
  refine ends_disarmRetry (fun t htrack => ?_) fun hother => ?_
  · subst htrack
    refine ends_withPipeline_number t _ (fun p hp => ?_) fun hnone => Or.inr ?_
    · rw [ends_onPipeline]
      refine Pipeline.retry_heeds.imp (fun _ r hr => ?_) fun _ _ he => Or.inl he
      refine ⟨?_, ?_, h.retry.disarm (fun u hu => s.pipelines.get_set_of_ne hu _) fun q hq => ?_⟩
      · rw [PerTrack.isSome_renew hp]
        exact haudio
      · rw [PerTrack.isSome_renew hp]
        exact hvideo
      · rw [PerTrack.get_set_self] at hq
        cases hq
        exact hr
    · refine ⟨haudio, hvideo, h.retry.disarm (fun _ _ => rfl) fun q hq => ?_⟩
      rw [hnone] at hq
      cases hq
  -- a retry for a track that does not exist was never posted, and changes nothing
  · have hne (t : Track) : Message.retryDecoder track ≠ .retryDecoder t.number :=
      fun heq => hother t (Message.retryDecoder.inj heq)
    have hready : Ready s := ⟨haudio, hvideo, (RetryAwaited.cons_iff hne).mp h.retry⟩
    refine ends_withPipeline track _ (fun t _ ht _ => ?_) (fun _ => Or.inr hready)
      fun _ _ _ => Or.inr hready
    exact absurd (Track.eq_number_of_ofNumber? ht) (hother t)

/-! ### Any message -/

/-- The session has stopped, or it expects what is in its timers. -/
def Awake (st : Session × World σ) : Prop := st.1.stopped = true ∨ Ready st.1

/-- After a message the session waits for what is in its timers, if the message was among what it
waited for or is not a wake-up. A fault that does not end the session is no exception. -/
theorem dispatch_ready (h : Expecting (m :: s.timers.items) s) :
    (dispatch P now m).Ends (s, w) (fun _ r => Awake r) fun e r => e.isFatal = true ∨ Awake r := by
  -- for all messages but a shutdown it is enough that the session stays ready
  have hrunning {a : Step σ Unit} (ha : a.Ends (s, w) (fun _ r => Ready r.1)
      fun e r => e.isFatal = true ∨ Ready r.1) :
      a.Ends (s, w) (fun _ r => Awake r) fun e r => e.isFatal = true ∨ Awake r :=
    ha.imp (fun _ _ hr => Or.inr hr) fun _ _ hr => hr.imp id Or.inr
  cases m with
  | setFormat track format =>
    exact (setFormat_ready (h.drop id) track format).imp (fun _ _ hr => Or.inr hr)
      fun _ _ hr => Or.inr (Or.inr hr)
  | queueUnit track unit =>
    apply hrunning
    have hready := h.drop id
    -- no wake-up depends on the count of units
    have hcounted : Ready { s with accessUnits := s.accessUnits + 1 } :=
      ⟨hready.audio, hready.video, hready.retry⟩
    simp only [dispatch, ends_bind, ends_update]
    exact withPipeline_ready hcounted track fun _ _ _ _ hp => Pipeline.submit_heeds hp unit
  | inputsAvailable track slots =>
    apply hrunning
    exact withPipeline_ready (h.drop id) track (a := (Pipeline.inputsAvailable · slots))
      fun _ _ _ _ hp => Pipeline.inputsAvailable_heeds hp slots
  | outputReady track slot pts payload =>
    exact hrunning (outputReady_ready (h.drop id) track slot pts payload)
  | pushAudio => exact hrunning (pushAudio_ready h)
  | retryDecoder track => exact hrunning (retryDecoder_ready h)
  | renderVideo generation => exact hrunning (renderVideo_ready h)
  | shutdown =>
    exact (teardown_stops (s, w)).imp (fun _ _ hr => Or.inl hr) fun _ _ hr => Or.inr (Or.inl hr)

/-- The pipeline of a track has no mark for a retry. -/
def Unmarked (t : Track) (s : Session) : Prop :=
  ∀ p, s.pipelines.get t = some p → p.retryNeeded = false

/-- The mark of the track is cleared, and no other mark is set. -/
theorem scheduleRetry_unmarks (t : Track) :
    (scheduleRetry time t).Ends (s, w)
      (fun _ r => Unmarked t r.1 ∧ ∀ u ≠ t, Unmarked u s → Unmarked u r.1) fun _ _ => False := by
  -- whatever else the retry does, it puts the pipeline back without its mark
  have hunmarked (p : Pipeline) (s' : Session)
      (hset : s'.pipelines = s.pipelines.set t (some { p with retryNeeded := false })) :
      Unmarked t s' ∧ ∀ u ≠ t, Unmarked u s → Unmarked u s' := by
    refine ⟨fun q hq => ?_, fun u hu hbefore q hq => hbefore q ?_⟩
    · rw [hset, PerTrack.get_set_self] at hq
      cases hq
      rfl
    · rw [hset, s.pipelines.get_set_of_ne hu] at hq
      exact hq
  refine ends_scheduleRetry (fun hnone => ?_) (fun p _ _ => hunmarked p _ rfl)
    fun p _ _ _ => hunmarked p _ rfl
  refine ⟨fun p hp => ?_, fun _ _ hu => hu⟩
  rw [hnone] at hp
  cases hp

/-- A mark becomes a retry that is posted, unless one is posted already. -/
theorem scheduleRetry_ready (h : Ready s) (t : Track) :
    (scheduleRetry time t).Ends (s, w)
      (fun _ r => Ready r.1 ∧ Unmarked t r.1 ∧ ∀ u ≠ t, Unmarked u s → Unmarked u r.1)
      fun _ _ => False := by
  have hready : (scheduleRetry time t).Ends (s, w) (fun _ r => Ready r.1) fun _ _ => False := by
    refine ends_scheduleRetry (fun _ => h) (fun p hp hknown => ?_) fun p hp hmark hunarmed => ?_
    · exact h.withTrack hp ((h.retry.heeded t p hp).clear hknown)
    -- the retry is posted first, so the mark can be cleared
    · have hposted : Ready { s with
          retryArmed := s.retryArmed.set t true
          timers := s.timers.schedule (time + retryDelay) (.retryDecoder t.number) } :=
        ⟨(AudioAwaited.cons_iff (m := .retryDecoder _) nofun).mpr h.audio,
          (VideoAwaited.cons_iff (m := .retryDecoder _) nofun).mpr h.video, h.retry.arm hunarmed⟩
      have hheeded : { p with retryNeeded := false }.Heeded ((s.retryArmed.set t true).get t) := by
        rw [PerTrack.get_set_self]
        exact .of_armed _
      exact hposted.withTrack hp hheeded
  exact (hready.and (scheduleRetry_unmarks t)).imp (fun _ _ hr => hr) fun _ _ he => he.1

/-- Between two messages the session expects what is in its timers, and no mark is left. -/
def AtRest (st : Session × World σ) : Prop :=
  st.1.stopped = true ∨ Ready st.1 ∧ ∀ t, Unmarked t st.1

/-- Handling a message ends with the retries of both tracks, so that no mark is left, whether it
fails or not. -/
theorem handle_atRest {st : Session × World σ}
    (h : st.1.stopped = true ∨ Expecting (m :: st.1.timers.items) st.1) :
    (handle P now m).Ends st (fun _ r => AtRest r) fun _ r => AtRest r := by
  cases hstopped : st.1.stopped with
  | true => exact (ends_handle_stopped hstopped).mpr (Or.inl hstopped)
  | false =>
    have hexpecting := h.resolve_left fun heq => by simp [hstopped] at heq
    refine (ends_handle (J := Awake) (F := fun _ => True) hstopped ?_ (fun r hr hrun => ?_) ?_
      fun _ => Or.inl).imp (fun _ _ hr => hr) fun _ _ hr => hr.2
    · exact (dispatch_ready hexpecting).imp (fun _ _ hr => hr) fun _ _ hr => ⟨trivial, hr⟩
    · have hready := hr.resolve_left fun heq => by simp [hrun] at heq
      -- the retry of the audio leaves the video unmarked
      refine (scheduleRetry_ready hready .video).imp (fun _ r hr => ?_) fun _ _ he => he
      refine (scheduleRetry_ready hr.1 .audio).imp (fun _ r' hr' => ?_) fun _ _ he => he
      refine Or.inr ⟨hr'.1, fun t => ?_⟩
      cases t with
      | video => exact hr'.2.2 .video (by decide) hr.2.1
      | audio => exact hr'.2.1
    · exact fun s w hr => hr.imp id fun hr => ⟨⟨hr.1.audio, hr.1.video, hr.1.retry⟩, hr.2⟩

/-! ## Runs -/

/-- A message that is taken from the timers is in hand. -/
theorem takeDue_atRest (st : Session × World σ) (h : AtRest st) :
    (takeDue time).Ends st (fun next r => (next = none → AtRest r) ∧
      ∀ m, next = some m → r.1.stopped = true ∨ Expecting (m :: r.1.timers.items) r.1)
      fun _ r => True ∧ AtRest r := by
  rw [ends_takeDue]
  split
  · exact ⟨fun _ => h, nofun⟩
  · next m timers hpop =>
    refine ⟨nofun, fun m' heq => ?_⟩
    cases heq
    refine h.imp id fun hready => ?_
    have hexpecting := hready.1.perm (TimerQueue.popDue_items hpop).symm
    exact ⟨hexpecting.audio, hexpecting.video, hexpecting.retry⟩

/-- Firing timers ends at rest, also when it fails. -/
theorem fireDue_atRest (clock : List Readings) :
    (fireDue P clock : Step σ _).Keeps AtRest := by
  intro st h
  exact (handleAll_ends (fun _ => takeDue_atRest) (fun _ m r hr =>
    (handle_atRest hr).imp (fun _ _ ht => ht) fun _ _ ht => ⟨trivial, ht⟩) clock st h).imp
    (fun _ _ hr => hr) fun _ _ hr => hr.2

/-- Wake-ups come from the timers alone: a message that is sent is not one, and the mailbox, where
anything may be, is left to itself. -/
def Event.NoWakeUp : Event σ → Prop
  | .message _ m => ¬ m.IsWakeUp
  | .mailbox _ _ => False
  | _ => True

/-- Every event that sends no wake-up ends at rest. -/
theorem perform_atRest (P : Platform σ) {e : Event σ} (he : e.NoWakeUp)
    {st : Session × World (Recorded σ)} (h : AtRest st) : AtRest (e.perform P st) := by
  have hstopped {α : Type} {a : Step (Recorded σ) α}
      (ha : a.Ends st (fun _ r => r.1.stopped = true) fun _ r => r.1.stopped = true) :
      AtRest (a.stateAfter st) :=
    Or.inl ha.stateAfter
  cases e with
  | message now m => exact Ends.stateAfter (handle_atRest (h.imp id fun hr => hr.1.keep he))
  | timers clock => exact (fireDue_atRest clock st h).stateAfter
  | mailbox mail due => exact he.elim
  | run clock => exact hstopped (run_stops clock st)
  | teardown => exact hstopped (teardown_stops st)
  | devices change posted => exact h

/-- A new session is at rest. -/
theorem new_atRest (tolerance : Int) : Ready (new tolerance) ∧ ∀ t, Unmarked t (new tolerance) := by
  refine ⟨⟨⟨rfl, nofun, rfl⟩, ⟨fun _ => rfl, rfl, rfl, nofun⟩, fun t p hp => ?_, fun t => ?_⟩,
    fun t p hp => ?_⟩
  · cases t <;> cases hp
  · cases t <;> rfl
  · cases t <;> cases hp

/-- After every run in which wake-ups come from the timers alone the session is at rest. -/
theorem afterEvents_atRest (P : Platform σ) (tolerance : Int) (devices : σ)
    (events : List (Event σ)) (hevents : ∀ e ∈ events, e.NoWakeUp) :
    AtRest (afterEvents P tolerance devices events) :=
  afterEvents_induction (Or.inr (new_atRest tolerance)) fun e he _ h =>
    perform_atRest P (hevents e he) h

/-- **No wake-up is lost, and none is doubled.** After any run that has not stopped the session,
whatever the devices answered, in which wake-ups came from the timers alone:

- audio waits only if a push has been asked for, and then one push is among the timers;
- the wake-up of the video is armed for the front frame, and then one of this generation is among
  the timers;
- a track with a deferred return, or with a unit and a free input slot for it, has a retry armed,
  and then one retry for it is among the timers.

If nothing is asked for or armed, there is no such timer. -/
theorem afterEvents_wakeUps_once (P : Platform σ) (tolerance : Int) (devices : σ)
    (events : List (Event σ)) (hevents : ∀ e ∈ events, e.NoWakeUp)
    (hrunning : (afterEvents P tolerance devices events).1.stopped = false) :
    let s := (afterEvents P tolerance devices events).1
    let waiting := s.timers.items
    (∀ pacer, s.pacer = some pacer →
      (pacer.queue ≠ [] → pacer.pushPending = true) ∧
      waiting.count .pushAudio = if pacer.pushPending then 1 else 0) ∧
    (s.pacer = none → waiting.count .pushAudio = 0) ∧
    s.scheduler.armedFor = s.scheduler.queue.head?.map (·.pts) ∧
    (waiting.count (.renderVideo s.generation) = if s.scheduler.queue = [] then 0 else 1) ∧
    ∀ t p, s.pipelines.get t = some p →
      (p.deferred ≠ [] ∨ p.freeInputs ≠ [] ∧ p.pendingUnits ≠ [] → s.retryArmed.get t = true) ∧
      waiting.count (.retryDecoder t.number) = if s.retryArmed.get t then 1 else 0 := by
  intro s waiting
  -- between two events every mark has been turned into a timer
  obtain ⟨hready, hunmarked⟩ : Ready s ∧ ∀ t, Unmarked t s :=
    (afterEvents_atRest P tolerance devices events hevents).resolve_left
      fun heq => by simp [hrunning] at heq
  refine ⟨fun pacer hpacer => ⟨hready.audio.asking pacer hpacer, ?_⟩, fun hnone => ?_,
    hready.video.armed, hready.video.once, fun t p hp => ⟨?_, ?_⟩⟩
  · rw [hready.audio.once, hpacer, Option.elim_some]
    cases pacer.pushPending <;> rfl
  · rw [hready.audio.once, hnone, Option.elim_none]
  · have hheeded := hready.retry.heeded t p hp
    have hunmarked := hunmarked t p hp
    -- no mark is left, so what the marks or timers promise is in the timers
    have harmed (hknown : p.retryNeeded = true ∨ s.retryArmed.get t = true) :
        s.retryArmed.get t = true :=
      hknown.resolve_left fun heq => by simp [hunmarked] at heq
    rintro (hdeferred | ⟨hfree, hunits⟩)
    · exact harmed (hheeded.returns hdeferred)
    · exact harmed (hheeded.inputs hfree hunits)
  · rw [hready.retry.once]
    cases s.retryArmed.get t <;> rfl

/-- Both tracks wait with a decoded output, and the video decoder has been too busy for a unit. -/
def busyAndWaiting : List (Event Simulation) :=
  [.message (.still 0) (.setFormat 0 (.video "video/avc" 64 64)),
    .message (.still 0) (.setFormat 1 (.audio "audio/raw" 48000 2)),
    .message (.still 0) (.outputReady 0 2 1000 [7]),
    .message (.still 0) (.outputReady 1 5 0 [1, 2, 3, 4]),
    .message (.still 0) (.queueUnit 0 ⟨0, [9]⟩), .message (.still 0) (.inputsAvailable 0 [3])]

/-- The run of these events on a video decoder that is busy once. -/
def busyRun : Session :=
  (afterEvents (Simulation.platform {}) 0 { faults := { busyQueues := 1 } } busyAndWaiting).1

/-- All three wake-ups are on their way. -/
theorem busyRun_wakeUps_once : (∀ e ∈ busyAndWaiting, e.NoWakeUp) ∧ busyRun.stopped = false ∧
    busyRun.timers.items.count .pushAudio = 1 ∧
    busyRun.timers.items.count (.renderVideo busyRun.generation) = 1 ∧
    busyRun.timers.items.count (.retryDecoder 0) = 1 := by
  have hevents : ∀ e ∈ busyAndWaiting, e.NoWakeUp := by
    simp [busyAndWaiting, Event.NoWakeUp, Message.IsWakeUp]
  have hrunning : busyRun.stopped = false := by decide +kernel
  have hpacer : busyRun.pacer.map (·.pushPending) = some true := by decide +kernel
  have hqueue : busyRun.scheduler.queue ≠ [] := by decide +kernel
  have hset : busyRun.pipelines.video.isSome = true := by decide +kernel
  have harmed : busyRun.retryArmed.video = true := by decide +kernel
  -- the counts follow from the state, which is computed
  obtain ⟨haudio, -, -, hvideo, hretry⟩ := afterEvents_wakeUps_once _ _ _ _ hevents hrunning
  obtain ⟨pacer, hsome, hpending⟩ := Option.map_eq_some_iff.mp hpacer
  obtain ⟨p, hp⟩ := Option.isSome_iff_exists.mp hset
  refine ⟨hevents, hrunning, ?_, ?_, ?_⟩
  · exact (haudio pacer hsome).2.trans (if_pos hpending)
  · exact hvideo.trans (if_neg hqueue)
  · exact (hretry .video p hp).2.trans (if_pos harmed)

end Playout.Session
