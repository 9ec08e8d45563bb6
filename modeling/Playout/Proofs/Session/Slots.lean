import Playout.Proofs.Decode.Misuse
import Playout.Proofs.Session.Handling
import Playout.Proofs.Session.Renderers
import Playout.Proofs.Session.Teardown
import Playout.Proofs.Timer.Queue

/-!
# The slots between a pipeline and its renderer

While a session runs, the output slots that the table of a pipeline says are held are those of the
queue of its renderer, each of them once. `Matched` says so of a session; every message keeps it,
whoever sends it, and whatever the devices answer:

    dispatch_matched     after a message the session is still matched, or it has stopped
    teardown_innocent    from a matched session nothing is returned that is not held

So no renderer ever returns a slot that is not its own. A slot misuse is the answer to a decoder
that reports a slot which it does not own (`Misreports`), unless the backend brought the fault
along (`Refuses`).
-/

namespace Playout

open Playout.Action

variable {σ : Type}

/-- The message sets a track up, and this is the backend's own answer to that. -/
def Platform.Refuses (P : Platform σ) (m : Message) (e : Fault) : Prop :=
  ∃ track format d, m = .setFormat track format ∧
    ((∃ t, (P.createDecoder t format d).1 = .error e) ∨ (P.createAudio format d).1 = .error e)

/-- Recording the calls changes no answer of the backend. -/
theorem Platform.refuses_of_recorded {P : Platform σ} {m : Message} {e : Fault}
    (h : P.recorded.Refuses m e) : P.Refuses m e := by
  obtain ⟨track, format, d, hm, hanswer⟩ := h
  exact ⟨track, format, d.devices, hm, hanswer⟩

/-- The message reports a slot that the decoder does not own: one that is out of range, or is not
pending, or is given twice. -/
def Message.Misreports (s : Session) (slot : Nat) : Message → Prop
  | .outputReady track reported _ _ => reported = slot ∧
    ∃ t p, Track.ofNumber? track = some t ∧ s.pipelines.get t = some p ∧
      p.outputs.state? slot ≠ some .pending
  | .inputsAvailable track slots =>
    ∃ t p, Track.ofNumber? track = some t ∧ s.pipelines.get t = some p ∧
      ∃ before after, slots = before ++ slot :: after ∧
        (slot ∈ before ∨ p.inputs.state? slot ≠ some .pending)
  | _ => False

namespace Session

variable {P : Platform σ} {now : Readings} {time : Int} {m : Message} {s s' : Session}
  {w : World σ} {t : Track} {p p' : Pipeline}

/-- Each renderer holds the slots that its pipeline says are held, and the timers bring nothing but
what the session posts to itself. -/
structure Matched (s : Session) : Prop extends s.Holds fun p held => p.Exact held [] where
  posted : ∀ m ∈ s.timers.items, m.IsWakeUp

/-- A slot misuse is the decoder's own, or the backend's. -/
def Blamed (P : Platform σ) (s : Session) (m : Message) (e : Fault) : Prop :=
  ∀ track slot text, e = .slotMisuse track slot text → m.Misreports s slot ∨ P.Refuses m e

/-- A fault that is no misuse needs no one to blame. -/
theorem Blamed.of_not_misuse {e : Fault} (h : ¬ e.IsMisuse) : Blamed P s m e := by
  rintro track slot text rfl
  exact absurd trivial h

/-- No message of the session itself misreports a slot. -/
theorem Blamed.not_misuse {e : Fault} (h : Blamed P s m e) (hm : m.IsWakeUp) : ¬ e.IsMisuse := by
  intro he
  cases e with
  | slotMisuse track slot text =>
    rcases h track slot text rfl with hmisreports | ⟨_, _, _, rfl, -⟩
    · cases m <;> first | exact hm | exact hmisreports
    · exact hm
  | _ => exact he

namespace Matched

variable (h : s.Matched)
include h

/-- What the renderers and the pipelines do not know does not matter. -/
theorem reframe (hpipelines : s'.pipelines = s.pipelines) (hscheduler : s'.scheduler = s.scheduler)
    (hpacer : s'.pacer = s.pacer)
    (htimers : ∀ m ∈ s'.timers.items, m ∈ s.timers.items ∨ m.IsWakeUp) :
    s'.Matched :=
  ⟨h.toHolds.frame hpipelines hscheduler hpacer, fun m hm => (htimers m hm).elim (h.posted m) id⟩

/-- Without timers nothing is posted. -/
theorem dropTimers : s.dropTimers.Matched :=
  h.reframe rfl rfl rfl fun _ hm => absurd hm List.not_mem_nil

/-- A pipeline may go on, if it still matches what its renderer holds. -/
theorem withTrack (hp : s.pipelines.get t = some p) (hexact : p'.Exact (s.heldBy t) []) :
    (s.withTrack t p').Matched :=
  ⟨h.toHolds.withTrack hp hexact, h.posted⟩

/-- The scheduler may go on with its pipeline, if the two match. -/
theorem withVideo {v : Scheduler} (hp : s.pipelines.get .video = some p)
    (hexact : p'.Exact v.slots []) : (s.withVideo v p').Matched :=
  ⟨h.toHolds.withVideo hp hexact, h.posted⟩

/-- The pacer may go on with its pipeline, if the two match. -/
theorem withAudio {pacer : Pacer} (hexact : p'.Exact pacer.slots []) :
    (s.withAudio pacer p').Matched :=
  ⟨h.toHolds.withAudio hexact, h.posted⟩

/-- A push is a message of the session itself. -/
theorem postPush (wait : Option Nat) : (postPush time wait s).Matched := by
  refine h.reframe (by simp) (by simp) (by simp) fun m hm => ?_
  cases wait with
  | none => exact Or.inl hm
  | some delay =>
    rcases List.mem_cons.mp hm with rfl | hold
    · exact Or.inr trivial
    · exact Or.inl hold

/-- A wake-up is a message of the session itself. -/
theorem postWakeUp (wait : Option Nat) : (postWakeUp time wait s).Matched := by
  refine h.reframe (by simp) (by simp) (by simp) fun m hm => ?_
  -- a timer that is not new was posted before
  cases wait with
  | none => exact Or.inl hm
  | some delay =>
    rcases List.mem_cons.mp hm with rfl | hold
    · exact Or.inr trivial
    · exact Or.inl hold

end Matched

/-! ## Messages -/

section Messages

/-- What a careful action does to a pipeline, its renderer need not know. -/
theorem onPipeline_matched {α : Type} (h : s.Matched) {a : Pipeline.Step (World σ) α}
    (ha : Pipeline.Careful a) (hp : s.pipelines.get t = some p) :
    (onPipeline t p a).Ends (s, w) (fun _ r => r.1.Matched)
      fun e r => ¬ e.IsMisuse ∧ r.1.Matched := by
  rw [ends_onPipeline]
  refine (ha _ (p, w) (h.fits t p hp)).imp (fun _ r hr => h.withTrack hp hr) fun e r hr => ?_
  exact ⟨hr.2, h.withTrack hp hr.1⟩

/-- The same for a message that looks its track up. -/
theorem withPipeline_matched (h : s.Matched) (track : Nat)
    {a : DecoderDevice (World σ) → Pipeline.Step (World σ) Unit}
    (ha : ∀ device, Pipeline.Careful (a device)) :
    (withPipeline P track a).Ends (s, w) (fun _ r => r.1.Matched)
      fun e r => ¬ e.IsMisuse ∧ r.1.Matched :=
  ends_withPipeline track a (fun _ _ _ hp => onPipeline_matched h (ha _) hp)
    (fun _ => ⟨id, h⟩) fun _ _ _ => ⟨id, h⟩

/-- A track that gets set up holds nothing yet, and neither does its renderer. -/
theorem setFormat_matched (h : s.Matched) (track : Nat) (format : MediaFormat) :
    (setFormat P track format).Ends (s, w) (fun _ r => r.1.Matched)
      fun e r => Blamed P s (.setFormat track format) e ∧ r.1.Matched := by
  refine (ends_setFormat (C := fun p => p.Exact [] []) (F := Blamed P s (.setFormat track format))
    (fun t w => (Pipeline.configure_exact format (t = .video) t.number w).imp
      (fun _ _ hp => hp) fun _ _ he => .of_not_misuse he)
    (.of_not_misuse id) (.of_not_misuse id) (fun t d e he => ?_) (fun d e he => ?_)
    fun t p' w' hnone hexact => ?_).imp (fun _ _ hr => hr) fun e r hr => ⟨hr.1, hr.2 ▸ h⟩
  -- what the backend answers is passed on, whatever it is
  · exact fun _ _ _ _ => Or.inr ⟨track, format, d, rfl, Or.inl ⟨t, he⟩⟩
  · exact fun _ _ _ _ => Or.inr ⟨track, format, d, rfl, Or.inr he⟩
  · cases t with
    | video =>
      refine ⟨h.toHolds.replace (t := .video) rfl (fun u _ => by cases u <;> rfl) ?_ h.paired,
        h.posted⟩
      have hidle : s.scheduler.slots = [] := h.idle .video hnone
      show p'.Exact s.scheduler.slots []
      rw [hidle]
      exact hexact
    | audio => exact h.withAudio hexact

/-- A report of input slots is to blame for a misuse. -/
theorem inputsAvailable_matched (h : s.Matched) (track : Nat) (slots : List Nat) :
    (withPipeline P track (Pipeline.inputsAvailable · slots)).Ends (s, w)
      (fun _ r => r.1.Matched)
      fun e r => Blamed P s (.inputsAvailable track slots) e ∧ r.1.Matched := by
  refine ends_withPipeline track _ (fun t p ht hp => ?_)
    (fun _ => ⟨.of_not_misuse id, h⟩) fun _ _ _ => ⟨.of_not_misuse id, h⟩
  rw [ends_onPipeline]
  refine (Pipeline.inputsAvailable_exact (h.fits t p hp) slots w).imp
    (fun _ r hr => h.withTrack hp hr) fun e r hr => ⟨?_, h.withTrack hp hr.1⟩
  rintro track' slot text heq
  exact Or.inl ⟨t, p, ht, hp, hr.2 track' slot text heq⟩

/-- A report of an output is to blame for a misuse; else its slot passes to the renderer. -/
theorem outputReady_matched (h : s.Matched) (track slot : Nat) (pts : Int)
    (payload : List UInt8) :
    (outputReady P now track slot pts payload).Ends (s, w) (fun _ r => r.1.Matched)
      fun e r => Blamed P s (.outputReady track slot pts payload) e ∧ r.1.Matched := by
  have hreported {t : Track} {p : Pipeline} (ht : Track.ofNumber? track = some t)
      (hp : s.pipelines.get t = some p) {e : Fault} {r : Pipeline × World σ}
      (hr : r.1.Exact (s.heldBy t) [] ∧ ∀ track other text, e = .slotMisuse track other text →
        other = slot ∧ p.outputs.state? slot ≠ some .pending) :
      Blamed P s (.outputReady track slot pts payload) e ∧ (s.withTrack t r.1).Matched := by
    refine ⟨?_, h.withTrack hp hr.1⟩
    rintro track' other text heq
    obtain ⟨rfl, hstate⟩ := hr.2 track' other text heq
    exact Or.inl ⟨rfl, t, p, ht, hp, hstate⟩
  refine ends_outputReady (fun p ht hp => ?_) (fun p ht hp => ?_)
    (fun _ => ⟨.of_not_misuse id, h⟩) fun _ _ _ => ⟨.of_not_misuse id, h⟩
  · refine (Pipeline.outputReady_exact (h.fits .video p hp) slot pts payload w).imp
      (fun output r hr => ?_) fun _ _ hr => hreported ht hp hr
    have hslots := hr.1.perm (s.scheduler.enqueue_slots output now.frames).symm
    exact (h.withVideo hp hslots).postWakeUp _
  · refine (Pipeline.outputReady_exact (h.fits .audio p hp) slot pts payload w).imp
      (fun output r hr => ⟨fun hnone => ?_, fun pacer hpacer => ?_⟩)
      fun _ _ hr => hreported ht hp hr
    · obtain ⟨pacer, hpacer⟩ := h.pacer_some hp
      rw [hnone] at hpacer
      cases hpacer
    · refine (Pacer.enqueue_ends _ output pacer r.2).imp (fun wait q hq => ?_) fun _ _ he => he
      -- the slot passes from the pipeline to the end of the queue
      have hqueued : r.1.Exact q.1.slots [] := by
        apply hr.1.perm
        rw [hq.1]
        simp only [heldBy, hpacer, Option.map_some, Option.getD_some]
        exact (List.perm_append_singleton _ _).symm
      exact (h.withAudio hqueued).postPush wait

/-- Returning a held slot to the decoder of a track. -/
theorem giveBack_passes (P : Platform σ) (t : Track) (kind : ReturnKind) :
    Passes (giveBack P t kind) (fun held r => r.1.Exact held []) fun e _ => ¬ e.IsMisuse :=
  Pipeline.returnOutput_passes kind

/-- The pacer returns slots that it holds, and lets go of them. -/
theorem pushAudio_matched (h : s.Matched) :
    (pushAudio P now).Ends (s, w) (fun _ r => r.1.Matched)
      fun e r => ¬ e.IsMisuse ∧ r.1.Matched := by
  refine ends_pushAudio (fun _ => h) fun pacer p hpacer hp => ?_
  refine (Pacer.push_owns (giveBack_passes P .audio .release) (fun _ _ _ h => h)
    (h.fits_pacer hpacer hp)).imp (fun wait r hr => (h.withAudio hr).postPush wait)
    fun e r hr => ⟨?_, h.withAudio hr.1⟩
  rcases hr.2 with hmisuse | ⟨reason, rfl⟩
  · exact hmisuse
  · exact id

/-- The scheduler returns slots that it holds, and lets go of them. -/
theorem renderVideo_matched (h : s.Matched) (generation : Nat) :
    (renderVideo P now generation).Ends (s, w) (fun _ r => r.1.Matched)
      fun e r => ¬ e.IsMisuse ∧ r.1.Matched := by
  refine ends_renderVideo (fun _ => h) fun p _ hp => ?_
  exact (Scheduler.renderDue_owns (giveBack_passes P .video .render) now.frames
    (h.fits .video p hp)).imp (fun wait r hr => (h.withVideo hp hr).postWakeUp wait)
    fun e r hr => ⟨hr.2, h.withVideo hp hr.1⟩

/-! ### Teardown -/

/-- A teardown begins with the frames that are held. -/
theorem releaseVideo_matched (h : s.Matched) :
    (releaseVideo P).Ends (s, w) (fun _ r => r.1.Matched) fun e _ => ¬ e.IsMisuse := by
  refine ends_releaseVideo (fun _ => h) fun p hp => ?_
  exact (Scheduler.releaseAll_owns (giveBack_passes P .video .release) (h.fits .video p hp)).imp
    (fun _ _ hr => h.withVideo hp hr) fun _ _ hr => hr.2

/-- The buffers that are held follow. -/
theorem releaseAudio_matched (h : s.Matched) :
    (releaseAudio P).Ends (s, w) (fun _ r => r.1.Matched) fun e _ => ¬ e.IsMisuse := by
  refine ends_releaseAudio (fun _ => h) fun pacer p hpacer hp => ?_
  exact (Pacer.releaseAll_owns (giveBack_passes P .audio .release) (h.fits_pacer hpacer hp)).imp
    (fun _ _ hr => h.withAudio hr) fun _ _ hr => hr.2

/-- A pipeline that knows what it holds is torn down without misuse, and the other one is not
touched. -/
theorem teardownPipeline_innocent
    (h : ∀ p, s.pipelines.get t = some p → ∃ held, p.Exact held []) :
    (teardownPipeline P t).Ends (s, w)
      (fun _ r => ∀ u ≠ t, r.1.pipelines.get u = s.pipelines.get u) fun e _ => ¬ e.IsMisuse := by
  refine ends_teardownPipeline (fun _ _ _ => rfl) fun p hp => ?_
  obtain ⟨held, hexact⟩ := h p hp
  refine (Pipeline.teardown_innocent hexact w).imp (fun _ r _ u hu => ?_) fun _ _ he => he
  exact s.pipelines.get_set_of_ne hu _

/-- A teardown returns what is held, and nothing else. -/
theorem teardown_innocent (h : s.Matched) :
    (teardown P).Ends (s, w) (fun _ _ => True) fun e _ => ¬ e.IsMisuse := by
  -- a second teardown does nothing
  cases hstopped : s.stopped with
  | true => exact (ends_teardown_stopped hstopped).mpr trivial
  | false =>
  rw [ends_teardown hstopped]
  refine (releaseVideo_matched h.dropTimers).imp (fun _ r hr => ?_) fun _ _ he => he
  refine (releaseAudio_matched hr).imp (fun _ r hr => ?_) fun _ _ he => he
  -- the pipelines end one after the other, and the second is not touched by the first
  refine (teardownPipeline_innocent fun p hp => ⟨_, hr.fits .video p hp⟩).imp
    (fun _ r' hr' => ?_) fun _ _ he => he
  refine (teardownPipeline_innocent fun p hp => ⟨_, hr.fits .audio p ?_⟩).imp
    (fun _ _ _ => trivial) fun _ _ he => he
  rw [← hr' .audio (by decide)]
  exact hp

/-! ### Any message -/

/-- The session has stopped, or it holds what it should. -/
def Tidy (st : Session × World σ) : Prop := st.1.stopped = true ∨ st.1.Matched

/-- After a teardown the session has stopped, which is tidy. -/
theorem teardown_tidy (h : s.Matched) :
    (teardown P).Ends (s, w) (fun _ r => Tidy r) fun e r => ¬ e.IsMisuse ∧ Tidy r :=
  ((teardown_innocent h).and (teardown_stops (s, w))).imp (fun _ _ hr => Or.inl hr.2)
    fun _ _ hr => ⟨hr.1, Or.inl hr.2⟩

/-- **One message.** It keeps renderers and pipelines matched, unless it stops the session, and a
misuse that comes of it is not the session's. -/
theorem dispatch_matched (h : s.Matched) (m : Message) :
    (dispatch P now m).Ends (s, w) (fun _ r => Tidy r) fun e r => Blamed P s m e ∧ Tidy r := by
  -- a message without a report leads to no misuse
  have hquiet {a : Step σ Unit} (ha : a.Ends (s, w) (fun _ r => r.1.Matched)
      fun e r => ¬ e.IsMisuse ∧ r.1.Matched) :
      a.Ends (s, w) (fun _ r => Tidy r) fun e r => Blamed P s m e ∧ Tidy r :=
    ha.imp (fun _ _ hr => Or.inr hr) fun _ _ hr => ⟨.of_not_misuse hr.1, Or.inr hr.2⟩
  cases m with
  | setFormat track format =>
    exact (setFormat_matched h track format).imp (fun _ _ hr => Or.inr hr)
      fun _ _ hr => ⟨hr.1, Or.inr hr.2⟩
  | queueUnit track unit =>
    apply hquiet
    simp only [dispatch, ends_bind, ends_update]
    have hcounted : ({ s with accessUnits := s.accessUnits + 1 } : Session).Matched :=
      h.reframe rfl rfl rfl fun _ hm => Or.inl hm
    exact withPipeline_matched hcounted track fun _ => Pipeline.submit_careful unit
  | inputsAvailable track slots =>
    exact (inputsAvailable_matched h track slots).imp (fun _ _ hr => Or.inr hr)
      fun _ _ hr => ⟨hr.1, Or.inr hr.2⟩
  | outputReady track slot pts payload =>
    exact (outputReady_matched h track slot pts payload).imp (fun _ _ hr => Or.inr hr)
      fun _ _ hr => ⟨hr.1, Or.inr hr.2⟩
  | pushAudio => exact hquiet (pushAudio_matched h)
  | retryDecoder track =>
    apply hquiet
    simp only [dispatch, ends_bind]
    refine ends_disarmRetry (fun t _ => ?_) fun _ => ?_
    · have hdisarmed : ({ s with retryArmed := s.retryArmed.set t false } : Session).Matched :=
        h.reframe rfl rfl rfl fun _ hm => Or.inl hm
      exact withPipeline_matched hdisarmed track fun _ => Pipeline.retry_careful
    · exact withPipeline_matched h track fun _ => Pipeline.retry_careful
  | renderVideo generation => exact hquiet (renderVideo_matched h generation)
  | shutdown =>
    exact (teardown_tidy h).imp (fun _ _ hr => hr) fun _ _ hr => ⟨.of_not_misuse hr.1, hr.2⟩

/-- Asking for a retry touches no slot. -/
theorem scheduleRetry_matched (h : s.Matched) (t : Track) :
    (scheduleRetry time t).Ends (s, w) (fun _ r => r.1.Matched) fun _ _ => False := by
  have hcleared (p : Pipeline) (hp : s.pipelines.get t = some p) :
      (s.withTrack t { p with retryNeeded := false }).Matched :=
    h.withTrack hp ((h.fits t p hp).congr rfl rfl rfl rfl rfl)
  refine ends_scheduleRetry (fun _ => h) (fun p hp _ => hcleared p hp) fun p hp _ _ => ?_
  refine (hcleared p hp).reframe rfl rfl rfl fun m hm => ?_
  rcases List.mem_cons.mp hm with rfl | hold
  · exact Or.inr trivial
  · exact Or.inl hold

/-- The retries and the counts that follow a message change no slot. -/
theorem handle_tidy (h : Tidy (s, w)) (m : Message) :
    (handle P now m).Ends (s, w) (fun _ r => Tidy r) fun e r => Blamed P s m e ∧ Tidy r := by
  cases hstopped : s.stopped with
  | true => exact (ends_handle_stopped hstopped).mpr h
  | false =>
    have hmatched : s.Matched := h.resolve_left fun heq => by simp [hstopped] at heq
    -- while the session runs, tidy means matched
    have htidy {r : Session × World σ} (hr : Tidy r) (hrun : r.1.stopped = false) : r.1.Matched :=
      hr.resolve_left fun heq => by simp [hrun] at heq
    refine ends_handle hstopped (J := Tidy) (F := Blamed P s m) ?_ (fun r hr hrun => ?_) ?_
      fun _ => Or.inl
    · exact (dispatch_matched hmatched m).imp (fun _ _ hr => hr) fun _ _ hr => ⟨hr.1, Or.inr hr.2⟩
    · refine (scheduleRetry_matched (htidy hr hrun) .video).imp (fun _ r hr => ?_) fun _ _ he => he
      exact (scheduleRetry_matched hr .audio).imp (fun _ _ hr => Or.inr hr) fun _ _ he => he
    · exact fun s w hr => hr.imp id fun hr => hr.reframe rfl rfl rfl fun _ hm => Or.inl hm

end Messages

/-! ## Runs -/

/-- What a timer brings is a message of the session itself. -/
theorem takeDue_tidy (st : Session × World σ) (h : Tidy st) :
    (takeDue time).Ends st (fun next r => (next = none → Tidy r) ∧
      ∀ m, next = some m → Tidy r ∧ (r.1.stopped = true ∨ m.IsWakeUp))
      fun e r => ¬ e.IsMisuse ∧ Tidy r := by
  rw [ends_takeDue]
  split
  · exact ⟨fun _ => h, nofun⟩
  · next m timers hpop =>
    have hitems := TimerQueue.popDue_items hpop
    refine ⟨nofun, fun m' heq => ?_⟩
    cases heq
    rcases h with hstopped | hmatched
    · exact ⟨Or.inl hstopped, Or.inl hstopped⟩
    -- the rest of the timers are messages of the session too
    · refine ⟨Or.inr ?_, Or.inr (hmatched.posted m (hitems.subset List.mem_cons_self))⟩
      exact hmatched.reframe rfl rfl rfl fun m' hm' =>
        Or.inl (hitems.subset (List.mem_cons_of_mem _ hm'))

/-- No timer of the session leads to a misuse. -/
theorem fireDue_tidy (clock : List Readings) (st : Session × World σ) (h : Tidy st) :
    (fireDue P clock).Ends st (fun _ r => Tidy r) fun e r => ¬ e.IsMisuse ∧ Tidy r := by
  refine handleAll_ends (fun _ => takeDue_tidy) (fun _ m r hr => ?_) clock st h
  rcases hr.2 with hstopped | hm
  · exact (ends_handle_stopped hstopped).mpr hr.1
  · exact (handle_tidy hr.1 m).imp (fun _ _ ht => ht) fun _ _ ht => ⟨ht.1.not_misuse hm, ht.2⟩

/-- Whatever the session is told, every slot keeps one owner until it stops. -/
theorem tidy_throughout : Throughout P (Tidy (σ := σ)) where
  due _ st h := by
    refine (takeDue_tidy st h).imp (fun next r hr => ?_) fun _ _ hr => hr.2
    cases next with
    | none => exact hr.1 rfl
    | some m => exact (hr.2 m rfl).1
  mail st h := by
    rw [ends_takeMail]
    split
    · exact h
    · exact h
  message _ m st h := (handle_tidy h m).imp (fun _ _ hr => hr) fun _ _ hr => hr.2
  teardown st _ := (teardown_stops st).imp (fun _ _ h => Or.inl h) fun _ _ h => Or.inl h

/-- A new session holds nothing. -/
theorem new_matched (tolerance : Int) : (new tolerance).Matched := by
  refine ⟨⟨fun t p hp => ?_, fun t _ => ?_, rfl⟩, fun _ hm => absurd hm List.not_mem_nil⟩
  · cases t <;> cases hp
  · cases t <;> rfl

/-- Slots and timers are tidy after every run. -/
theorem afterEvents_tidy (P : Platform σ) (tolerance : Int) (devices : σ)
    (events : List (Event σ)) : Tidy (afterEvents P tolerance devices events) :=
  afterEvents_induction (Or.inr (new_matched tolerance)) fun e _ _ h =>
    tidy_throughout.perform (fun _ _ _ _ h => h) e h

/-- The action, run from `st`, does not end in the misuse of a slot. -/
def Innocent {α : Type} (a : Step σ α) (st : Session × World σ) : Prop :=
  a.Ends st (fun _ _ => True) fun e _ => ¬ e.IsMisuse

/-- **Every output slot has one owner.** After any run that has not stopped the session, whatever
the devices answered: the slots that a pipeline says are held are exactly those that wait in its
renderer, each of them once, and a track without a pipeline has none. A message that comes then, in
whatever world, ends in the misuse of a slot only if it is the report of a decoder about a slot that
is out of range or not pending, or if it sets a track up and the backend answers so. What the timers
bring does not, and neither does a teardown, also when it follows a message that failed. -/
theorem afterEvents_slots_owned_once (P : Platform σ) (tolerance : Int) (devices : σ)
    (events : List (Event σ))
    (hrunning : (afterEvents P tolerance devices events).1.stopped = false) :
    let s := (afterEvents P tolerance devices events).1
    (∀ t p, s.pipelines.get t = some p → (s.heldBy t).Nodup ∧
      ∀ slot, p.outputs.state? slot = some .holdingOutput ↔ slot ∈ s.heldBy t) ∧
    (∀ t, s.pipelines.get t = none → s.heldBy t = []) ∧
    ∀ w,
      (∀ now m, (handle P.recorded now m).Ends (s, w) (fun _ _ => True) fun e _ =>
        ∀ track slot text, e = .slotMisuse track slot text →
          m.Misreports s slot ∨ P.Refuses m e) ∧
      (∀ clock, Innocent (fireDue P.recorded clock) (s, w)) ∧
      Innocent (teardown P.recorded) (s, w) ∧
      ∀ now m, Innocent (do
        let _ ← Action.attempt (dispatch P.recorded now m)
        teardown P.recorded) (s, w) := by
  intro s
  -- a teardown of a tidy session returns only what is held
  have hinnocent (r : Session × World (Recorded σ)) (h : Tidy r) :
      Innocent (teardown P.recorded) r := by
    rcases h with hstopped | hmatched
    · exact (ends_teardown_stopped hstopped).mpr trivial
    · exact teardown_innocent hmatched
  have hmatched : s.Matched := (afterEvents_tidy P tolerance devices events).resolve_left
    fun heq => by simp [hrunning] at heq
  refine ⟨fun t p hp => ?_, hmatched.idle, fun w => ?_⟩
  · have hexact := hmatched.fits t p hp
    exact ⟨hexact.held_nodup, fun slot => ⟨hexact.held_all slot, hexact.held_state slot⟩⟩
  have htidy : Tidy (s, w) := Or.inr hmatched
  refine ⟨fun now m => ?_, fun clock => ?_, hinnocent _ htidy, fun now m => ?_⟩
  · refine (handle_tidy htidy m).imp (fun _ _ _ => trivial) fun e _ he track slot text heq => ?_
    exact (he.1 track slot text heq).imp id Platform.refuses_of_recorded
  · exact (fireDue_tidy clock _ htidy).imp (fun _ _ _ => trivial) fun _ _ he => he.1
  · simp only [Innocent, ends_bind, ends_attempt]
    exact (dispatch_matched hmatched m).imp (fun _ r hr => hinnocent r hr)
      fun _ r hr => hinnocent r hr.2

/-- Both tracks are set up, and each waits with a decoded output. -/
def outputsWaiting : List (Event Simulation) :=
  [.message (.still 0) (.setFormat 0 (.video "video/avc" 64 64)),
    .message (.still 0) (.setFormat 1 (.audio "audio/raw" 48000 2)),
    .message (.still 0) (.outputReady 0 2 1000 [7]),
    .message (.still 0) (.outputReady 1 5 0 [1, 2, 3, 4])]

/-- Of the video slots only the reported one is held. -/
theorem outputsWaiting_slots_owned_once :
    (afterEvents (Simulation.platform {}) 0 {} outputsWaiting).1.stopped = false ∧
      ∀ p, (afterEvents (Simulation.platform {}) 0 {} outputsWaiting).1.pipelines.video = some p →
        ∀ slot, p.outputs.state? slot = some .holdingOutput ↔ slot ∈ [2] := by
  have hrunning : (afterEvents (Simulation.platform {}) 0 {} outputsWaiting).1.stopped = false := by
    decide +kernel
  have hheld :
      (afterEvents (Simulation.platform {}) 0 {} outputsWaiting).1.heldBy .video = [2] := by
    decide +kernel
  refine ⟨hrunning, fun p hp slot => ?_⟩
  rw [← hheld]
  exact ((afterEvents_slots_owned_once _ _ _ _ hrunning).1 .video p hp).2 slot

end Session

end Playout
