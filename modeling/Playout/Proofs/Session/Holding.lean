import Playout.Proofs.Session.Recording
import Playout.Proofs.Session.Renderers

/-!
# What a running session holds

While a session runs, the slots that its renderers hold are those that its pipelines handed out,
and the record of the devices agrees with the tracks that are set up. Every message keeps this,
whatever the devices answer.
-/

namespace Playout

open Playout.Action

variable {σ : Type}

/-- The record of a world agrees with the tracks. -/
def Books (configured done : PerTrack Bool) (w : World (Recorded σ)) : Prop :=
  Ledger configured done w.devices.calls

/-- The last call in the record of a world was refused. -/
def Refused (w : World (Recorded σ)) : Prop := LastRefused w.devices.calls

/-- A call of a decoder is recorded with the refusal, if it was refused, before all earlier ones. -/
theorem recorded_call (P : Platform σ) (t : Track) (c : DecoderCall) (w : World (Recorded σ)) :
    ((P.recorded.decoderDevice t).call c w).2.devices.calls =
      .decoder t (made t w.devices.calls) c
        (refusal? ((P.recorded.decoderDevice t).call c w).1) :: w.devices.calls := rfl

/-- When a call has been refused the last call in the record is a refused one. -/
theorem recorded_refused {P : Platform σ} {t : Track} {c : DecoderCall}
    {w : World (Recorded σ)} {e : DecoderError}
    (h : ((P.recorded.decoderDevice t).call c w).1 = .error e) :
    Refused ((P.recorded.decoderDevice t).call c w).2 :=
  ⟨t, _, c, e, by rw [recorded_call, h]; rfl⟩

/-- Feeding a decoder and returning slots to it leave the books as they are, and a refusal shows in
the record. -/
theorem recorded_follows (P : Platform σ) (t : Track) (configured done : PerTrack Bool) :
    (P.recorded.decoderDevice t).Follows (Books configured done) Refused where
  quiet c w hc h := by
    rw [Books, recorded_call]
    exact h.quiet (by cases c <;> first | exact hc.elim | trivial)
  refused _ _ _ h := recorded_refused h

namespace Session

/-- The tracks that are set up. -/
def configured (s : Session) : PerTrack Bool :=
  ⟨s.pipelines.video.isSome, s.pipelines.audio.isSome⟩

/-- The tracks that are set up are those that have a pipeline. -/
theorem configured_get (s : Session) (t : Track) :
    s.configured.get t = (s.pipelines.get t).isSome := by
  cases t <;> rfl

/-- The pipelines agree with what the renderers hold, and the record with the pipelines. -/
structure Alive (st : Session × World (Recorded σ)) : Prop where
  sound : ∀ t p, st.1.pipelines.get t = some p → p.Sound (st.1.heldBy t) []
  idle : ∀ t, st.1.pipelines.get t = none → st.1.heldBy t = []
  paired : st.1.pacer.isSome = st.1.pipelines.audio.isSome
  books : Books st.1.configured (.both false) st.2

/-- What the pipeline of a track and the world satisfy while a renderer holds `held`. -/
abbrev Keeping (s : Session) (held : List Nat) (r : Pipeline × World (Recorded σ)) : Prop :=
  Pipeline.Owns (Books s.configured (.both false)) held r

variable {s s' : Session} {w w' : World (Recorded σ)} {t : Track} {p p' : Pipeline}

/-- What a running session holds, and what the record of its devices says, can be told apart. -/
theorem alive_iff : Alive (s, w) ↔
    s.Holds (fun p held => p.Sound held []) ∧ Books s.configured (.both false) w :=
  ⟨fun h => ⟨⟨h.sound, h.idle, h.paired⟩, h.books⟩,
    fun h => ⟨h.1.fits, h.1.idle, h.1.paired, h.2⟩⟩

/-- A track that gets its first pipeline is set up from then on. -/
theorem configured_set (hset : s'.pipelines = s.pipelines.set t (some p')) :
    s'.configured = s.configured.set t true := by
  unfold configured
  rw [hset]
  cases t <;> rfl

/-- A pipeline that goes on changes nothing about which tracks are set up. -/
theorem configured_renew (hp : s.pipelines.get t = some p)
    (hset : s'.pipelines = s.pipelines.set t (some p')) : s'.configured = s.configured := by
  rw [configured_set hset]
  unfold configured
  cases t <;> simp_all [PerTrack.get, PerTrack.set]

/-- In a session that is alive the pipeline of a track fits its renderer. -/
theorem Alive.keeping (h : Alive (s, w)) (hp : s.pipelines.get t = some p) :
    Keeping s (s.heldBy t) (p, w) := ⟨h.sound t p hp, h.books⟩

theorem Alive.keeping_pacer (h : Alive (s, w)) {pacer : Pacer} (hpacer : s.pacer = some pacer)
    (hp : s.pipelines.get .audio = some p) : Keeping s pacer.slots (p, w) :=
  ⟨(alive_iff.mp h).1.fits_pacer hpacer hp, h.books⟩

/-- One track gets another pipeline and other slots. -/
theorem Alive.replace (h : Alive (s, w)) (hset : s'.pipelines = s.pipelines.set t (some p'))
    (hother : ∀ u ≠ t, s'.heldBy u = s.heldBy u) (hsound : p'.Sound (s'.heldBy t) [])
    (hpaired : s'.pacer.isSome = s'.pipelines.audio.isSome)
    (hbooks : Books (s.configured.set t true) (.both false) w') : Alive (s', w') := by
  refine alive_iff.mpr ⟨(alive_iff.mp h).1.replace hset hother hsound hpaired, ?_⟩
  rw [configured_set hset]
  exact hbooks

/-- A pipeline may go on, if it still fits what the renderer holds. -/
theorem Alive.withTrack (h : Alive (s, w)) (hp : s.pipelines.get t = some p)
    {r : Pipeline × World (Recorded σ)} (hr : Keeping s (s.heldBy t) r) :
    Alive (s.withTrack t r.1, r.2) := by
  refine alive_iff.mpr ⟨(alive_iff.mp h).1.withTrack hp hr.1, ?_⟩
  rw [configured_renew hp rfl]
  exact hr.2

/-- The scheduler and the pipeline of the video may go on together. -/
theorem Alive.withVideo (h : Alive (s, w)) (hp : s.pipelines.get .video = some p) {v : Scheduler}
    {r : Pipeline × World (Recorded σ)} (hr : Keeping s v.slots r) :
    Alive (s.withVideo v r.1, r.2) := by
  refine alive_iff.mpr ⟨(alive_iff.mp h).1.withVideo hp hr.1, ?_⟩
  rw [configured_renew hp rfl]
  exact hr.2

/-- The pacer and the pipeline of the audio may go on together. -/
theorem Alive.withAudio (h : Alive (s, w)) (hp : s.pipelines.get .audio = some p) {pacer : Pacer}
    {r : Pipeline × World (Recorded σ)} (hr : Keeping s pacer.slots r) :
    Alive (s.withAudio pacer r.1, r.2) := by
  refine alive_iff.mpr ⟨(alive_iff.mp h).1.withAudio hr.1, ?_⟩
  rw [configured_renew hp rfl]
  exact hr.2

/-- Giving a slot back makes it the decoder's again, also when the decoder is too busy or fails. -/
theorem giveBack_givesAway (P : Platform σ) (t : Track) (kind : ReturnKind) (s : Session) :
    GivesAway (giveBack P.recorded t kind) (Keeping s) fun r => Refused r.2 :=
  fun _ _ _ h => Pipeline.returnOutput_ends (recorded_follows P t _ _) h kind

/-! ## Messages -/

/-- The session has not stopped, and holds what it should. -/
def Running (st : Session × World (Recorded σ)) : Prop := st.1.stopped = false ∧ Alive st

theorem Running.withTrack (h : Running (s, w)) (hp : s.pipelines.get t = some p)
    {r : Pipeline × World (Recorded σ)} (hr : Keeping s (s.heldBy t) r) :
    Running (s.withTrack t r.1, r.2) :=
  ⟨h.1, h.2.withTrack hp hr⟩

theorem Running.withVideo (h : Running (s, w)) (hp : s.pipelines.get .video = some p)
    {v : Scheduler} {r : Pipeline × World (Recorded σ)} (hr : Keeping s v.slots r) :
    Running (s.withVideo v r.1, r.2) :=
  ⟨h.1, h.2.withVideo hp hr⟩

theorem Running.withAudio (h : Running (s, w)) (hp : s.pipelines.get .audio = some p)
    {pacer : Pacer} {r : Pipeline × World (Recorded σ)} (hr : Keeping s pacer.slots r) :
    Running (s.withAudio pacer r.1, r.2) :=
  ⟨h.1, h.2.withAudio hp hr⟩

/-- What is not held does not matter. -/
theorem Running.frame {st st' : Session × World (Recorded σ)} (h : Running st)
    (hstopped : st'.1.stopped = st.1.stopped) (hpipelines : st'.1.pipelines = st.1.pipelines)
    (hscheduler : st'.1.scheduler = st.1.scheduler) (hpacer : st'.1.pacer = st.1.pacer)
    (hcalls : st'.2.devices.calls = st.2.devices.calls) : Running st' := by
  obtain ⟨hholds, hbooks⟩ := alive_iff.mp h.2
  refine ⟨hstopped.trans h.1, alive_iff.mpr ⟨hholds.frame hpipelines hscheduler hpacer, ?_⟩⟩
  rw [Books, hcalls, configured, hpipelines]
  exact hbooks

/-- Posting a push is nothing to what is held. -/
theorem Running.postPush (h : Running (s, w)) (now : Int) (wait : Option Nat) :
    Running (postPush now wait s, w) :=
  h.frame (by simp) (by simp) (by simp) (by simp) rfl

/-- Posting a wake-up is nothing to what is held. -/
theorem Running.postWakeUp (h : Running (s, w)) (now : Int) (wait : Option Nat) :
    Running (postWakeUp now wait s, w) :=
  h.frame (by simp) (by simp) (by simp) (by simp) rfl

/-- An action on a pipeline keeps the session in order if it keeps the pipeline so. -/
theorem onPipeline_running {α : Type} {a : Pipeline.Step (World (Recorded σ)) α}
    {st : Session × World (Recorded σ)} (h : Running st) (hp : st.1.pipelines.get t = some p)
    (ha : a.Keeps (Keeping st.1 (st.1.heldBy t))) :
    (onPipeline t p a).Ends st (fun _ st => Running st) fun _ st => Running st := by
  rw [ends_onPipeline]
  exact ha.ends (h.2.keeping hp) (fun _ _ hr => Running.withTrack h hp hr)
    fun _ _ hr => Running.withTrack h hp hr

/-- The same for a track by its number, which need not exist or be set up. -/
theorem withPipeline_running (P : Platform σ) (track : Nat)
    {a : DecoderDevice (World (Recorded σ)) → Pipeline.Step (World (Recorded σ)) Unit}
    (ha : ∀ t s held, (a (P.recorded.decoderDevice t)).Keeps (Keeping s held)) :
    (withPipeline P.recorded track a).Keeps Running := fun st h =>
  ends_withPipeline track a (fun t _ _ hp => onPipeline_running h hp (ha t st.1 _))
    (fun _ => h) fun _ _ _ => h

/-- What is known when the decoder that was created last has started. -/
structure Begun (configured : PerTrack Bool) (t : Track) (w : World (Recorded σ)) : Prop where
  books : Books (configured.set t true) (.both false) w
  started : Started t (made t w.devices.calls) w.devices.calls
  output : .createAudio true ∈ w.devices.calls → configured.audio = true

/-- A new decoder starts, or none more than before has started. -/
theorem configure_begun (P : Platform σ) {configured : PerTrack Bool}
    (hbooks : Books configured (.both false) w) (ht : configured.get t = false)
    (hfresh : Unstarted t w.devices.calls) (format : MediaFormat) (onSurface : Bool) :
    (Pipeline.configure (P.recorded.decoderDevice t) format onSurface).Ends
      ({ track := t.number }, w) (fun _ r => r.1.Sound [] [] ∧ Begun configured t r.2)
      fun _ r => Books configured (.both false) r.2 := by
  have hquiet : (DeviceCall.decoder t (made t w.devices.calls) (.configure format onSurface)
      (refusal? ((P.recorded.decoderDevice t).call (.configure format onSurface) w).1)).Quiet :=
    trivial
  -- setting up is a quiet call, and only the start makes the decoder one to be stopped
  have hbooks' := hbooks.quiet hquiet
  have hfresh' := hfresh.quiet hquiet
  rw [← recorded_call] at hbooks' hfresh'
  refine (Pipeline.configure_ends format onSurface t.number w).imp ?_ ?_
  -- it has started, and is recorded as the decoder of this track
  · rintro _ ⟨p, w'⟩ ⟨hsound, rfl, hanswer⟩
    have hcalls := recorded_call P t .start
      ((P.recorded.decoderDevice t).call (.configure format onSurface) w).2
    rw [hanswer] at hcalls
    refine ⟨hsound, by rw [Books, hcalls]; exact hbooks'.started ht hfresh', ?_, fun ho => ?_⟩
    · rw [hcalls, made_decoder]
      exact started_cons.mpr (Or.inl rfl)
    · rw [hcalls] at ho
      exact hbooks'.output (by simpa using ho)
  -- setting up was refused, or the start was
  · rintro _ ⟨p, w'⟩ (hw | ⟨hw, hanswer⟩)
    · cases hw
      exact hbooks'
    · cases hw
      rw [Books, recorded_call]
      exact hbooks'.quiet (refusal?_ne_none hanswer)

/-- A pipeline for a track that is not set up. -/
theorem startPipeline_begun (P : Platform σ) {configured : PerTrack Bool}
    (hbooks : Books configured (.both false) w) (ht : configured.get t = false)
    (format : MediaFormat) :
    (startPipeline P.recorded t format).Ends (s, w)
      (fun p st => st.1 = s ∧ p.Sound [] [] ∧ Begun configured t st.2)
      fun _ st => st.1 = s ∧ Books configured (.both false) st.2 := by
  have hcreate : (P.recorded.createDecoder t format w.devices).2.calls = .createDecoder t
      (P.recorded.createDecoder t format w.devices).1.isOk :: w.devices.calls := rfl
  simp only [startPipeline, ends_bind, ends_onDevices]
  cases hanswer : (P.recorded.createDecoder t format w.devices).1 with
  | error e => -- no decoder, and nothing but a refused call in the record
    rw [hanswer] at hcreate
    refine ⟨rfl, ?_⟩
    show Ledger _ _ (P.recorded.createDecoder t format w.devices).2.calls
    rw [hcreate]
    exact hbooks.quiet rfl
  | ok x =>
    rw [hanswer] at hcreate
    obtain ⟨hbooks', hfresh⟩ := hbooks.created ht
    simp only [ends_ofExcept_ok, ends_get]
    have hconfigure := configure_begun P
      (w := { w with devices := (P.recorded.createDecoder t format w.devices).2 })
      (by rw [Books]; exact hcreate ▸ hbooks') ht (hcreate ▸ hfresh) format (t = .video)
    -- the pipeline is not yet a part of the session, so no lemma on parts applies to its run
    unfold Ends at hconfigure
    split at hconfigure
    · next hrun =>
      rw [hrun]
      simpa using hconfigure
    · next hrun =>
      rw [hrun]
      simpa using hconfigure

/-- Setting a track up leaves the session in order, wherever it fails. The delicate case is an audio
output that cannot be created: the session forgets a pipeline whose decoder runs on, and the books
allow for that. -/
theorem setFormat_running (P : Platform σ) (track : Nat) (format : MediaFormat) :
    (setFormat P.recorded track format).Keeps Running := by
  rintro ⟨s, w⟩ ⟨hrunning, h⟩
  simp only [setFormat, ends_bind]
  refine ends_trackOf track (fun t _ => ?_) fun _ => ⟨hrunning, h⟩
  simp only [ends_get, ends_ite, ends_bind, ends_throw, ends_onDevices, ends_update]
  split
  · exact ⟨hrunning, h⟩
  · next hunset =>
    have hnone : s.pipelines.get t = none := by simpa using hunset
    have hfalse : s.configured.get t = false := by rw [configured_get, hnone]; rfl
    refine (startPipeline_begun P h.books hfalse format).imp ?_ ?_
    · rintro p ⟨s', w'⟩ ⟨hs, hsound, hbegun⟩
      obtain rfl : s' = s := hs
      split
      · next haudio =>
        subst haudio
        have hcreate : (P.recorded.createAudio format w'.devices).2.calls = .createAudio
            (P.recorded.createAudio format w'.devices).1.isOk :: w'.devices.calls := rfl
        cases hanswer : (P.recorded.createAudio format w'.devices).1 with
        | error e =>
          rw [hanswer] at hcreate
          -- the session forgets the pipeline, whose decoder has started
          have houtput : .createAudio true ∉ w'.devices.calls := fun ho =>
            absurd (hbegun.output ho) (by simpa [PerTrack.get] using hfalse)
          refine ⟨hrunning, h.sound, h.idle, h.paired, ?_⟩
          show Ledger _ _ (P.recorded.createAudio format w'.devices).2.calls
          rw [hcreate]
          exact hbegun.books.output_refused hfalse hbegun.started houtput
        | ok x =>
          rw [hanswer] at hcreate
          refine ⟨hrunning, h.replace (t := .audio) rfl (fun u hu => ?_) hsound rfl ?_⟩
          · cases u <;> first | rfl | exact absurd rfl hu
          · show Ledger _ _ (P.recorded.createAudio format w'.devices).2.calls
            rw [hcreate]
            exact Ledger.output_created hbegun.books (PerTrack.get_set_self _ _ _)
      · next hvideo =>
        have ht : t = .video := by cases t <;> simp_all
        subst ht
        -- the new pipeline holds nothing, and neither does the scheduler, as the track was idle
        refine ⟨hrunning, h.replace rfl (fun u hu => ?_) ?_ ?_ hbegun.books⟩
        · cases u <;> rfl
        · show p.Sound (s'.heldBy .video) []
          rw [h.idle .video hnone]
          exact hsound
        · exact h.paired
    · rintro e ⟨s', w'⟩ ⟨hs, hbooks⟩
      obtain rfl : s' = s := hs
      exact ⟨hrunning, h.sound, h.idle, h.paired, hbooks⟩

/-- The slot of an output passes from the pipeline to the renderer of its track. -/
theorem outputReady_running (P : Platform σ) (now : Readings) (track slot : Nat) (pts : Int)
    (payload : List UInt8) :
    (outputReady P.recorded now track slot pts payload).Keeps Running := by
  rintro ⟨s, w⟩ h
  refine ends_outputReady (fun p _ hp => ?_) (fun p _ hp => ?_) (fun _ => h) fun _ _ _ => h
  · refine (Pipeline.outputReady_ends (h.2.keeping hp) slot pts payload).imp
      (fun output r hr => ?_) fun _ _ hr => h.withTrack hp hr
    have hkeeping : Keeping s (s.scheduler.enqueue output now.frames).2.slots r :=
      ⟨hr.1.perm (s.scheduler.enqueue_slots output now.frames).symm, hr.2⟩
    exact (h.withVideo hp hkeeping).postWakeUp now.posting _
  · refine (Pipeline.outputReady_ends (h.2.keeping hp) slot pts payload).imp
      (fun output r hr => ⟨fun hnone => ?_, fun pacer hpacer => ?_⟩)
      fun _ _ hr => h.withTrack hp hr
    -- an audio pipeline never goes without a pacer
    · obtain ⟨pacer, hpacer⟩ := (alive_iff.mp h.2).1.pacer_some hp
      rw [hnone] at hpacer
      cases hpacer
    · refine (Pacer.enqueue_ends (E := fun _ _ => False) _ output pacer r.2).imp ?_
        fun _ _ he => he.elim
      rintro wait ⟨pacer', w'⟩ ⟨hslots, rfl⟩
      -- the slot passes from the pipeline to the end of the queue
      have hkeeping : Keeping s pacer'.slots r := by
        refine ⟨hr.1.perm ?_, hr.2⟩
        rw [hslots]
        simp only [heldBy, hpacer, Option.map_some, Option.getD_some]
        exact (List.perm_append_singleton _ _).symm
      exact (h.withAudio hp hkeeping).postPush now.posting wait

/-- Writing to the output is nothing to the decoders. -/
theorem write_keeps (P : Platform σ) (s : Session) (held : List Nat) (bytes : List UInt8)
    (r : Pipeline × World (Recorded σ)) (h : Keeping s held r) :
    Keeping s held (P.recorded.audioDevice.onSecond.write bytes r).2 :=
  ⟨h.1, h.2.quiet trivial⟩

/-- A push gives back the slots of the buffers that it has written to the end. -/
theorem pushAudio_running (P : Platform σ) (now : Readings) :
    (pushAudio P.recorded now).Keeps Running := by
  rintro ⟨s, w⟩ h
  refine ends_pushAudio (fun _ => h) fun pacer p hpacer hp => ?_
  exact (Pacer.push_owns (giveBack_givesAway P .audio .release s) (write_keeps P s)
    (h.2.keeping_pacer hpacer hp)).imp
    (fun wait _ hr => (h.withAudio hp hr).postPush now.posting wait)
    fun _ _ hr => h.withAudio hp hr.1

/-- A wake-up gives the slots of the due frames back to be presented. -/
theorem renderVideo_running (P : Platform σ) (now : Readings) (generation : Nat) :
    (renderVideo P.recorded now generation).Keeps Running := by
  rintro ⟨s, w⟩ h
  refine ends_renderVideo (fun _ => h) fun p _ hp => ?_
  exact (Scheduler.renderDue_owns (giveBack_givesAway P .video .render s) now.frames
    (h.2.keeping hp)).imp
    (fun wait _ hr => (h.withVideo hp hr).postWakeUp now.posting wait)
    fun _ _ hr => h.withVideo hp hr.1

/-- Asking for a retry changes nothing that is held. -/
theorem scheduleRetry_running (now : Int) (t : Track) :
    (scheduleRetry now t : Step (Recorded σ) Unit).Keeps Running := by
  rintro ⟨s, w⟩ h
  have hcleared (p : Pipeline) (hp : s.pipelines.get t = some p) :
      Running (s.withTrack t { p with retryNeeded := false }, w) := by
    have hkeeping : Keeping s (s.heldBy t) ({ p with retryNeeded := false }, w) :=
      ⟨(h.2.sound t p hp).congr rfl rfl rfl, h.2.books⟩
    exact h.withTrack hp hkeeping
  refine ends_scheduleRetry (fun _ => h) (fun p hp _ => hcleared p hp) fun p hp _ _ => ?_
  exact (hcleared p hp).frame rfl rfl rfl rfl rfl

/-- Every message but a shutdown finds the session running and leaves it so. -/
theorem dispatch_running (P : Platform σ) (now : Readings) {m : Message} (hm : m ≠ .shutdown) :
    (dispatch P.recorded now m).Keeps Running := by
  cases m with
  | setFormat track format => exact setFormat_running P track format
  | queueUnit track unit => -- the count of units is nothing to the slots and timers
    intro st h
    simp only [dispatch, ends_bind, ends_update]
    exact withPipeline_running P track
      (fun t _ _ => Pipeline.submit_keeps (recorded_follows P t _ _) unit) _
      (h.frame rfl rfl rfl rfl rfl)
  | inputsAvailable track slots =>
    exact withPipeline_running P track (a := (Pipeline.inputsAvailable · slots))
      fun t _ _ => Pipeline.inputsAvailable_keeps (recorded_follows P t _ _) slots
  | outputReady track slot pts payload => exact outputReady_running P now track slot pts payload
  | pushAudio => exact pushAudio_running P now
  | retryDecoder track =>
    -- disarming changes no pipeline, so the retry runs as if it stood alone
    have hretry := withPipeline_running P track (a := Pipeline.retry)
      fun t _ _ => Pipeline.retry_keeps (recorded_follows P t _ _)
    rintro ⟨s, w⟩ h
    simp only [dispatch, ends_bind]
    refine ends_disarmRetry (fun t _ => ?_) fun _ => ?_
    · exact hretry _ (h.frame rfl rfl rfl rfl rfl)
    · exact hretry _ h
  | renderVideo generation => exact renderVideo_running P now generation
  | shutdown => exact absurd rfl hm

end Session

end Playout
