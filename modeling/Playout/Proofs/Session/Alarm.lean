import Playout.Proofs.Session.Frames

/-!
# The wake-up of the video comes in time

The wake-up is armed for the front frame, and a timer brings it when the time of that frame has
come, or at once if the frame came late (`InTime`). It may be late itself: the wait is measured by
one look at the clock and counted from the next one, so the time between the two is added to it.
`lag` is the most that this can be. Every message keeps the wake-up in time, whoever sends it and
whatever the devices answer, as long as no clock goes back:

    handle_inTime     after a message the wake-up is in time again, or the session has stopped

So when all due timers have been heard every frame that still waits is one whose time is still to
come, or came less than `lag` ago, and those that were presented are the others (`fireDue_fired`).
If no time passes between two looks, these are the frames whose time has come
(`fireDue_presents_due`).
-/

namespace Playout.Session

open Playout.Action

variable {σ : Type} {lag clock time : Int} {now : Readings} {m : Message} {s s' : Session}
  {hand : List Message}

/-! ## Wake-ups in time -/

/-- A timer brings the wake-up of this generation at most `lag` after `time`, or at the clock
reading `clock` if that is later. -/
def Wakes (lag clock time : Int) (s : Session) : Prop :=
  ∃ e ∈ s.timers.entries, e.item = .renderVideo s.generation ∧ e.due ≤ max (time + lag) clock

/-- The frames wait in the order of their times, the wake-up is armed for the one in front, and it
is in hand or a timer brings it in time. -/
structure InTime (lag clock : Int) (hand : List Message) (s : Session) : Prop where
  sorted : Scheduler.Sorted s.scheduler.queue
  armed : s.scheduler.Armed
  woken : ∀ time ∈ s.scheduler.armedFor, .renderVideo s.generation ∈ hand ∨ s.Wakes lag clock time

/-- Frames and wake-ups are as they were, and no timer is dropped. -/
structure Undisturbed (s s' : Session) : Prop where
  scheduler : s'.scheduler = s.scheduler
  generation : s'.generation = s.generation
  stopped : s'.stopped = s.stopped
  timers : s.timers.entries ⊆ s'.timers.entries

theorem Undisturbed.refl (s : Session) : Undisturbed s s := ⟨rfl, rfl, rfl, List.Subset.refl _⟩

theorem Undisturbed.trans {s'' : Session} (h : Undisturbed s s') (h' : Undisturbed s' s'') :
    Undisturbed s s'' :=
  ⟨h'.scheduler.trans h.scheduler, h'.generation.trans h.generation, h'.stopped.trans h.stopped,
    List.Subset.trans h.timers h'.timers⟩

namespace InTime

/-- A later reading asks no more of the wake-up. -/
theorem later (h : InTime lag clock hand s) (hclock : clock ≤ time) : InTime lag time hand s := by
  refine ⟨h.sorted, h.armed, fun time htime => (h.woken time htime).imp id ?_⟩
  rintro ⟨e, he, hitem, hdue⟩
  exact ⟨e, he, hitem, Int.le_trans hdue (by omega)⟩

/-- Whatever leaves frames, wake-ups and timers alone leaves the wake-up in time. -/
theorem undisturbed (h : InTime lag clock hand s) (h' : Undisturbed s s') :
    InTime lag clock hand s' := by
  refine ⟨h'.scheduler ▸ h.sorted, h'.scheduler ▸ h.armed, ?_⟩
  rw [h'.scheduler, h'.generation]
  refine fun time htime => (h.woken time htime).imp id ?_
  rintro ⟨e, he, hitem, hdue⟩
  exact ⟨e, h'.timers he, hitem.trans (by rw [h'.generation]), hdue⟩

/-- Another message in hand is not waited for. -/
theorem drop (h : InTime lag clock [m] s) (hm : m ≠ .renderVideo s.generation) :
    InTime lag clock [] s :=
  ⟨h.sorted, h.armed, fun time htime => (h.woken time htime).imp
    (fun hmem => absurd (List.mem_singleton.mp hmem).symm hm) id⟩

/-- A message that comes from outside is in hand. -/
theorem keep (h : InTime lag clock [] s) (m : Message) : InTime lag clock [m] s :=
  ⟨h.sorted, h.armed, fun time htime => (h.woken time htime).imp (List.mem_cons_of_mem _) id⟩

/-- A timer that is heard is in hand. -/
theorem take {timers : TimerQueue Message} (h : InTime lag clock [] s)
    (hpop : s.timers.popDue time = some (m, timers)) : InTime lag clock [m] { s with timers } := by
  obtain ⟨first, hfirst, -, hperm⟩ := TimerQueue.popDue_entries hpop
  refine ⟨h.sorted, h.armed, fun time htime => ?_⟩
  obtain ⟨e, he, hitem, hdue⟩ := (h.woken time htime).resolve_left List.not_mem_nil
  rcases List.mem_cons.mp (hperm.mem_iff.mpr he) with rfl | hrest
  · exact Or.inl (List.mem_singleton.mpr (hitem.symm.trans hfirst))
  · exact Or.inr ⟨e, hrest, hitem, hdue⟩

/-- When no timer is due no frame is, unless it has been due for less than `lag`. -/
theorem ahead (h : InTime lag clock [] s) (hclock : clock ≤ time)
    (hpop : s.timers.popDue time = none) : ∀ f ∈ s.scheduler.queue, time < f.pts + lag := by
  intro f hf
  obtain ⟨front, others, hqueue⟩ := List.exists_cons_of_ne_nil (List.ne_nil_of_mem hf)
  have harmed : s.scheduler.armedFor = some front.pts := by
    have h := h.armed
    unfold Scheduler.Armed at h
    rw [h, hqueue]
    rfl
  -- the wake-up of the front frame is still to come, so its timer is not due, and no frame is
  -- before the front
  obtain ⟨e, he, -, hdue⟩ := (h.woken front.pts harmed).resolve_left List.not_mem_nil
  have hlate := TimerQueue.lt_due_of_popDue_none hpop e he
  have hfront : front.pts ≤ f.pts := by
    have hsorted := h.sorted
    rw [hqueue] at hsorted hf
    rcases List.mem_cons.mp hf with rfl | hf
    · exact Int.le_refl _
    · exact (List.pairwise_cons.mp hsorted).1 f hf
  omega

/-- The scheduler has answered at the reading `time`, and if it asked for a wake-up, that is posted
at the reading `clock`. -/
theorem postWakeUp {v : Scheduler} {p : Pipeline} {wait : Option Nat} (hlag : clock ≤ time + lag)
    (hsorted : Scheduler.Sorted v.queue) (harmed : v.Armed) (hwaits : v.WaitsFor time wait)
    (hkept : wait = none → ∀ time ∈ v.armedFor, s.Wakes lag clock time) :
    InTime lag clock [] (postWakeUp clock wait (s.withVideo v p)) := by
  have hscheduler : (Session.postWakeUp clock wait (s.withVideo v p)).scheduler = v :=
    postWakeUp_scheduler wait
  refine ⟨by rwa [hscheduler], by rwa [hscheduler], fun due hdue => Or.inr ?_⟩
  rw [hscheduler] at hdue
  cases wait with
  | none => exact hkept rfl due hdue
  | some delay =>
    obtain ⟨due', hdue', hdelay⟩ := hwaits delay rfl
    have heq : due = due' := Option.some.inj (hdue.symm.trans hdue')
    refine ⟨⟨clock + delay, s.timers.nextTicket, .renderVideo (s.generation + 1)⟩,
      List.mem_cons_self, rfl, ?_⟩
    -- the wait ends at `due` or is nothing, and `clock` is at most `lag` after its beginning
    show clock + (delay : Int) ≤ max (due + lag) clock
    omega

end InTime

/-! ## Messages that leave the frames alone -/

section Messages

variable {P : Platform σ} {w : World σ}

theorem undisturbed_postPush (wait : Option Nat) (pacer : Pacer) (p : Pipeline) :
    Undisturbed s (postPush clock wait (s.withAudio pacer p)) := by
  cases wait with
  | none => exact ⟨rfl, rfl, rfl, List.Subset.refl _⟩
  | some delay => exact ⟨rfl, rfl, rfl, List.subset_cons_self _ _⟩

/-- What is done to a pipeline is nothing to the frames that wait. -/
theorem withPipeline_undisturbed {α : Type} (track : Nat)
    (a : DecoderDevice (World σ) → Pipeline.Step (World σ) α) :
    (withPipeline P track a).Ends (s, w) (fun _ t => Undisturbed s t.1)
      fun _ t => Undisturbed s t.1 := by
  refine ends_withPipeline track a (fun t p _ _ => ?_) (fun _ => .refl s) fun _ _ _ => .refl s
  rw [ends_onPipeline]
  exact ends_of_forall (fun _ _ => ⟨rfl, rfl, rfl, List.Subset.refl _⟩)
    fun _ _ => ⟨rfl, rfl, rfl, List.Subset.refl _⟩

/-- Setting a track up does not concern frames: the new pipeline has none. -/
theorem setFormat_undisturbed (track : Nat) (format : MediaFormat) :
    (setFormat P track format).Ends (s, w) (fun _ t => Undisturbed s t.1)
      fun _ t => Undisturbed s t.1 := by
  apply (ends_setFormat (C := fun _ => True) (F := fun _ => True) (fun _ _ => ends_true _)
    trivial trivial (fun _ _ _ _ => trivial) (fun _ _ _ => trivial) ?_).imp
  · intro _ t ht
    exact ht
  · rintro _ t ⟨-, hsame⟩
    rw [hsame]
    exact .refl s
  · intro t p w' _ _
    exact ⟨rfl, rfl, rfl, List.Subset.refl _⟩

/-- A push of audio posts another push at most. -/
theorem pushAudio_undisturbed :
    (pushAudio P now).Ends (s, w) (fun _ t => Undisturbed s t.1) fun _ t => Undisturbed s t.1 := by
  apply ends_pushAudio
  · intro _
    exact .refl s
  · intro pacer p _ _
    exact ends_of_forall (fun wait r => undisturbed_postPush wait r.1 r.2.1)
      fun _ _ => ⟨rfl, rfl, rfl, List.Subset.refl _⟩

/-- A retry offers what is deferred, and no frame that waits for its time. -/
theorem retryDecoder_undisturbed (track : Nat) :
    (dispatch P now (.retryDecoder track)).Ends (s, w) (fun _ t => Undisturbed s t.1)
      fun _ t => Undisturbed s t.1 := by
  simp only [dispatch, ends_bind]
  apply ends_disarmRetry
  · intro t _
    let disarmed := { s with retryArmed := s.retryArmed.set t false }
    have hdisarmed : Undisturbed s disarmed := ⟨rfl, rfl, rfl, List.Subset.refl _⟩
    exact (withPipeline_undisturbed (s := disarmed) track Pipeline.retry).imp
      (fun _ _ ht => hdisarmed.trans ht) fun _ _ ht => hdisarmed.trans ht
  · intro _
    exact withPipeline_undisturbed track Pipeline.retry

/-- Asking for a retry adds a timer, and that is all. -/
theorem scheduleRetry_undisturbed (t : Track) :
    (scheduleRetry time t).Ends (s, w) (fun _ r => Undisturbed s r.1) fun _ _ => False := by
  apply ends_scheduleRetry
  · intro _
    exact .refl s
  · intro p _ _
    exact ⟨rfl, rfl, rfl, List.Subset.refl _⟩
  · intro p _ _ _
    exact ⟨rfl, rfl, rfl, List.subset_cons_self _ _⟩

/-! ## Messages about frames -/

/-- The session runs, and the wake-up is in time. -/
def RunsInTime (lag clock : Int) (st : Session × World σ) : Prop :=
  st.1.stopped = false ∧ InTime lag clock [] st.1

theorem Undisturbed.runsInTime {t : Session × World σ} (h : Undisturbed s t.1)
    (hrunning : s.stopped = false) (hs : InTime lag clock [] s) : RunsInTime lag clock t :=
  ⟨h.stopped.trans hrunning, hs.undisturbed h⟩

/-- A frame that comes in front moves the wake-up forward, and behind another one it leaves the
wake-up where it is. -/
theorem outputReady_inTime (hlag : now.posting ≤ now.frames + lag) (hrunning : s.stopped = false)
    (h : InTime lag now.posting [] s) (track slot : Nat) (pts : Int) (payload : List UInt8) :
    (outputReady P now track slot pts payload).Ends (s, w) (fun _ t => RunsInTime lag now.posting t)
      fun _ t => RunsInTime lag now.posting t := by
  have hsame : RunsInTime lag now.posting (s, w) := ⟨hrunning, h⟩
  have hfailed (t : Track) (p : Pipeline) (w' : World σ) :
      RunsInTime lag now.posting (s.withTrack t p, w') :=
    Undisturbed.runsInTime (s := s) (t := (s.withTrack t p, w')) ⟨rfl, rfl, rfl, List.Subset.refl _⟩
      hrunning h
  apply ends_outputReady
  case video =>
    intro p _ _
    refine ends_of_forall (fun output r => ⟨?_, ?_⟩) fun _ r => hfailed .video r.1 r.2
    · rw [postWakeUp_stopped]
      exact hrunning
    · apply InTime.postWakeUp hlag
      · rw [Scheduler.enqueue_queue]
        exact Scheduler.sorted_place h.sorted output
      · exact (Scheduler.enqueue_arms h.armed output now.frames).1
      · exact s.scheduler.enqueue_waitsFor output now.frames
      -- no new wake-up is asked for, because the one that is armed comes early enough
      · intro hnone time htime
        rw [Scheduler.enqueue_armedFor hnone] at htime
        exact (h.woken time htime).resolve_left List.not_mem_nil
  case audio =>
    intro p _ _
    refine ends_of_forall (fun output r => ⟨?_, ?_⟩) fun _ r => hfailed .audio r.1 r.2
    · intro _
      exact hfailed .audio r.1 r.2
    · intro pacer _
      apply ends_of_forall
      · intro wait q
        exact (undisturbed_postPush wait q.1 r.1).runsInTime hrunning h
      · intro _ q
        exact Undisturbed.runsInTime (s := s) (t := (s.withAudio q.1 r.1, q.2))
          ⟨rfl, rfl, rfl, List.Subset.refl _⟩ hrunning h
  case unknown =>
    intro _
    exact hsame
  case unset =>
    intro _ _ _
    exact hsame

/-- A wake-up that counts presents the frames that are due, and asks for the next one. -/
theorem renderVideo_inTime (hlag : now.posting ≤ now.frames + lag)
    (hrunning : s.stopped = false) (hmatched : s.Matched) (generation : Nat)
    (h : InTime lag now.posting [.renderVideo generation] s) :
    (renderVideo P now generation).Ends (s, w) (fun _ t => RunsInTime lag now.posting t)
      fun e _ => e.isFatal = true := by
  apply ends_renderVideo
  case idle =>
    intro hidle
    refine ⟨hrunning, ?_⟩
    by_cases hthis : generation = s.generation
    · -- without a pipeline no frame waits for a wake-up
      have hslots : s.scheduler.slots = [] :=
        hmatched.idle .video (hidle.resolve_left fun hne => hne hthis)
      have hdisarmed : s.scheduler.armedFor = none := by
        rw [h.armed, List.map_eq_nil_iff.mp hslots]
        rfl
      refine ⟨h.sorted, h.armed, fun time htime => ?_⟩
      rw [hdisarmed] at htime
      cases htime
    -- a wake-up of an older generation was replaced by a newer one, which counts
    · exact h.drop fun heq => hthis (Message.renderVideo.inj heq)
  case rendered =>
    intro p _ hp
    have hgive (slot : Nat) (rest : List Nat) (r : Pipeline × World σ) (_ : True) :
        (giveBack P .video .render slot).Ends r (fun _ _ => True) fun e _ => e.isFatal = true :=
      Pipeline.returnOutput_fatal slot .render r
    -- what leaves the queue is its front, and the scheduler asks for the wake-up of the new front
    have hpresents := @Scheduler.renderDue_presents _ (giveBack P .video .render)
      (fun _ _ => True) _ s.scheduler (p, w) hgive now.frames trivial
    have hanswer := (Scheduler.renderDue_arms (giveBack P .video .render) now.frames s.scheduler
      (p, w)).and
      (Scheduler.renderDue_waitsFor (giveBack P .video .render) now.frames s.scheduler (p, w))
    apply (hpresents.and hanswer).imp
    · rintro wait r ⟨⟨⟨first, hqueue, -⟩, -⟩, ⟨harmed, hwait⟩, hwaits⟩
      refine ⟨?_, InTime.postWakeUp hlag ?_ harmed hwaits ?_⟩
      · rw [postWakeUp_stopped]
        exact hrunning
      · have hsorted := h.sorted
        rw [hqueue] at hsorted
        exact (List.pairwise_append.mp hsorted).2.1
      -- no wake-up is asked for only if no frame is left
      · intro hnone time htime
        rw [harmed, hwait.mp hnone] at htime
        cases htime
    · intro _ _ he
      exact he.1

/-! ## Any message -/

/-- What a message says keeps the wake-up in time, unless it stops the session. Only frames and
wake-ups touch the scheduler; all other messages leave it `Undisturbed`. -/
theorem dispatch_inTime (hlag : now.posting ≤ now.frames + lag) (hrunning : s.stopped = false)
    (hmatched : s.Matched) (h : InTime lag now.posting [m] s) (hm : m ≠ .shutdown) :
    (dispatch P now m).Ends (s, w) (fun _ t => RunsInTime lag now.posting t)
      fun e t => e.isFatal = true ∨ RunsInTime lag now.posting t := by
  have hquiet {a : Step σ Unit} (hother : m ≠ .renderVideo s.generation)
      (ha : a.Ends (s, w) (fun _ t => Undisturbed s t.1) fun _ t => Undisturbed s t.1) :
      a.Ends (s, w) (fun _ t => RunsInTime lag now.posting t)
        fun e t => e.isFatal = true ∨ RunsInTime lag now.posting t := by
    apply ha.imp
    · intro _ t ht
      exact ht.runsInTime hrunning (h.drop hother)
    · intro _ t ht
      exact Or.inr (ht.runsInTime hrunning (h.drop hother))
  -- the message in hand is a wake-up of the video in one case only, and no other one is waited for
  cases m with
  | setFormat track format => exact hquiet (by simp) (setFormat_undisturbed track format)
  | queueUnit track unit =>
    apply hquiet (by simp)
    simp only [dispatch, ends_bind, ends_update]
    let counted := { s with accessUnits := s.accessUnits + 1 }
    have hcounted : Undisturbed s counted := ⟨rfl, rfl, rfl, List.Subset.refl _⟩
    exact (withPipeline_undisturbed (s := counted) track (Pipeline.submit · unit)).imp
      (fun _ _ ht => hcounted.trans ht) fun _ _ ht => hcounted.trans ht
  | inputsAvailable track slots =>
    exact hquiet (by simp) (withPipeline_undisturbed track (Pipeline.inputsAvailable · slots))
  | outputReady track slot pts payload =>
    exact (outputReady_inTime hlag hrunning (h.drop (by simp)) track slot pts payload).imp
      (fun _ _ ht => ht) fun _ _ ht => Or.inr ht
  | pushAudio => exact hquiet (by simp) pushAudio_undisturbed
  | retryDecoder track => exact hquiet (by simp) (retryDecoder_undisturbed track)
  | renderVideo generation =>
    exact (renderVideo_inTime hlag hrunning hmatched generation h).imp (fun _ _ ht => ht)
      fun _ _ he => Or.inl he
  | shutdown => exact absurd rfl hm

/-- **The wake-up is in time after every message.** A message stops the session, or the wake-up is
armed for the front frame and a timer brings it when that frame is due, or at once, but for the
time that passes between two looks at the clock. -/
theorem handle_inTime {st : Session × World σ} (hlag : now.posting ≤ now.frames + lag)
    (hrunning : st.1.stopped = false) (hmatched : st.1.Matched)
    (h : InTime lag now.posting [m] st.1) :
    (handle P now m).Ends st (fun _ t => t.1.stopped = true ∨ InTime lag now.posting [] t.1)
      fun _ t => t.1.stopped = true ∨ InTime lag now.posting [] t.1 := by
  have hretry (u : Track) (t : Session × World σ) (ht : InTime lag now.posting [] t.1) :
      (scheduleRetry (now.retry.get u) u).Ends t (fun _ t => InTime lag now.posting [] t.1)
        fun _ _ => False :=
    (scheduleRetry_undisturbed u).imp (fun _ _ hu => ht.undisturbed hu) fun _ _ he => he
  apply (ends_handle (I := fun t => t.1.stopped = true ∨ InTime lag now.posting [] t.1)
    (J := fun t => t.1.stopped = true ∨ InTime lag now.posting [] t.1) (F := fun _ => True) hrunning
    ?dispatch ?retries ?publish fun _ => Or.inl).imp (fun _ _ ht => ht) fun _ _ ht => ht.2
  case dispatch =>
    by_cases hm : m = .shutdown
    -- a teardown stops the session, also one that breaks off
    · subst hm
      exact (teardown_stops st).imp (fun _ _ ht => Or.inl ht)
        fun _ _ ht => ⟨trivial, Or.inr (Or.inl ht)⟩
    · apply (dispatch_inTime hlag hrunning hmatched h hm).imp
      · intro _ t ht
        exact Or.inr ht.2
      · intro _ t ht
        exact ⟨trivial, ht.imp id fun ht => Or.inr ht.2⟩
  case retries =>
    intro t ht hrun
    refine (hretry .video t (ht.resolve_left (by simp [hrun]))).imp ?_ fun _ _ he => he
    intro _ t' ht'
    exact (hretry .audio t' ht').imp (fun _ _ h => Or.inr h) fun _ _ he => he
  case publish =>
    intro s' w' hs'
    exact hs'.imp id fun hs' => hs'.undisturbed ⟨rfl, rfl, rfl, List.Subset.refl _⟩

end Messages

/-! ## Hearing the timers -/

/-- The clock does not go back from one message to the next, nor while one is handled. -/
def Onward (clock : List Readings) : Prop := (clock.flatMap Readings.inOrder).Pairwise (· ≤ ·)

instance (clock : List Readings) : Decidable (Onward clock) :=
  inferInstanceAs (Decidable (List.Pairwise _ _))

namespace Onward

variable {earlier later readings : List Readings}

/-- The first part of a clock that does not go back is such a clock, and so is the rest of it. -/
theorem append (h : Onward (earlier ++ later)) : Onward earlier ∧ Onward later ∧
    ∀ now ∈ earlier, ∀ next ∈ later, now.posting ≤ next.timers := by
  unfold Onward at h
  rw [List.flatMap_append] at h
  obtain ⟨hearlier, hlater, hbetween⟩ := List.pairwise_append.mp h
  refine ⟨hearlier, hlater, fun now hnow next hnext => hbetween _ ?_ _ ?_⟩
  · exact List.mem_flatMap.mpr ⟨now, hnow, by simp [Readings.inOrder]⟩
  · exact List.mem_flatMap.mpr ⟨next, hnext, List.mem_cons_self⟩

/-- What is read after the first reading is not before it. -/
theorem cons (h : Onward (now :: readings)) :
    Onward readings ∧ ∀ next ∈ readings, now.posting ≤ next.timers := by
  have happend : Onward ([now] ++ readings) := h
  obtain ⟨-, hrest, hnext⟩ := happend.append
  exact ⟨hrest, hnext now (List.mem_singleton_self now)⟩

/-- Within one message the clock does not go back either. -/
theorem of_mem (h : Onward readings) (hnow : now ∈ readings) :
    now.timers ≤ now.frames ∧ now.frames ≤ now.posting := by
  have hone := (List.pairwise_flatMap.mp h).1 now hnow
  simp only [Readings.inOrder, List.pairwise_cons, List.mem_cons] at hone
  exact ⟨hone.1 _ (Or.inl rfl), hone.2.1 _ (Or.inl rfl)⟩

end Onward

section Firing

variable {P : Platform σ} {st t t' : Session × World (Recorded σ)}

/-- Since `st` frames whose time has come were presented, in their order, and nothing else was done
to the frames. `hand` is still to be handled. -/
structure Fired (lag clock : Int) (hand : List Message) (st t : Session × World (Recorded σ)) :
    Prop where
  running : t.1.stopped = false
  matched : t.1.Matched
  linked : Linked t
  inTime : InTime lag clock hand t.1
  shown : ∃ first, st.1.scheduler.queue = first ++ t.1.scheduler.queue ∧
    (∀ f ∈ first, f.pts ≤ clock) ∧
    (frames t.2).offered = (frames st.2).offered ++ first.map (·.slot)

/-- What has happened up to a reading has happened up to a later one. -/
theorem Fired.later (h : Fired lag clock hand st t) (hclock : clock ≤ time) :
    Fired lag time hand st t := by
  obtain ⟨first, hqueue, hdue, hoffered⟩ := h.shown
  refine ⟨h.running, h.matched, h.linked, h.inTime.later hclock, first, hqueue, ?_, hoffered⟩
  intro f hf
  exact Int.le_trans (hdue f hf) hclock

/-- No frame comes by a wake-up. -/
theorem Fired.turn (h : Fired lag clock hand st t) (hm : m.IsWakeUp)
    (hturned : Turned time (some m) t t') (htime : time ≤ clock)
    (hrunning : t'.1.stopped = false) (hmatched : t'.1.Matched)
    (hinTime : InTime lag clock [] t'.1) : Fired lag clock [] st t' := by
  obtain ⟨hlinked, first', hturn, hoffered'⟩ := hturned
  refine ⟨hrunning, hmatched, hlinked, hinTime, ?_⟩
  obtain ⟨first, hqueue, hdue, hoffered⟩ := h.shown
  -- the frames that this wake-up presents come behind those presented before
  refine ⟨first ++ first', ?_, ?_, ?_⟩
  · rw [hqueue, List.append_assoc]
    congr 1
    generalize t.1.scheduler.queue = queue at hturn
    generalize t'.1.scheduler.queue = queue' at hturn
    cases hturn with
    | same => rfl
    | placed => exact hm.elim
    | presented => rfl
  · intro f hf
    rcases List.mem_append.mp hf with hf | hf
    · exact hdue f hf
    · generalize t.1.scheduler.queue = queue at hturn
      generalize t'.1.scheduler.queue = queue' at hturn
      cases hturn with
      | same => cases hf
      | placed => cases hf
      | presented generation rest hdue' => exact Int.le_trans (hdue' f hf) htime
  · rw [hoffered', hoffered, List.map_append, List.append_assoc]

/-- Handling a wake-up presents frames at most. -/
theorem Fired.heard (h : Fired lag now.posting [m] st t) (hm : m.IsWakeUp)
    (hframes : now.frames ≤ now.posting) (hlag : now.posting ≤ now.frames + lag) :
    (handle P.recorded now m).Ends t (fun _ t' => Fired lag now.posting [] st t')
      fun _ _ => True := by
  have hrunning : (handle P.recorded now m).Ends t (fun _ t' => t'.1.stopped = false)
      fun _ _ => True := by
    have hgoesOn : m ≠ .shutdown := by
      rintro rfl
      exact hm
    apply handle_running h.running
    apply (dispatch_inTime hlag h.running h.matched h.inTime hgoesOn).imp
    · intro _ t' ht'
      exact ht'.1
    · intro _ _ _
      trivial
  -- four things are known of the message: it does not stop the session, it takes a turn, it leaves
  -- the session in order, and the wake-up in time
  have hknown := (hrunning.and (handle_turned h.running h.matched h.linked m)).and
    ((handle_tidy (P := P.recorded) (Or.inr h.matched) m).and
      (handle_inTime (P := P.recorded) hlag h.running h.matched h.inTime))
  refine hknown.imp ?_ fun _ _ _ => trivial
  rintro _ t' ⟨⟨hrun, hturned⟩, htidy, hinTime⟩
  have hrun' : ¬ t'.1.stopped = true := by simp [hrun]
  exact h.turn hm (hturned.resolve_left hrun') hframes hrun (htidy.resolve_left hrun')
    (hinTime.resolve_left hrun')

/-- A timer that is due is in hand. -/
theorem Fired.taken {timers : TimerQueue Message} (h : Fired lag clock [] st t)
    (hpop : t.1.timers.popDue time = some (m, timers)) :
    m.IsWakeUp ∧ Fired lag clock [m] st ({ t.1 with timers }, t.2) := by
  have hitems := TimerQueue.popDue_items hpop
  refine ⟨h.matched.posted m (hitems.subset List.mem_cons_self), h.running, ?_, h.linked,
    h.inTime.take hpop, h.shown⟩
  refine h.matched.reframe rfl rfl rfl fun m' hm' => ?_
  exact Or.inl (hitems.subset (List.mem_cons_of_mem _ hm'))

/-- All due timers are heard, if there are readings for as many messages: the one after the last
message finds no timer that is due. -/
theorem fireDue_fired {readings : List Readings} (h : Fired lag clock [] st t)
    (honward : Onward readings) (hclock : ∀ now ∈ readings, clock ≤ now.timers)
    (hlag : ∀ now ∈ readings, now.posting ≤ now.frames + lag) :
    (fireDue P.recorded readings).Ends t
      (fun n t' => ∀ k, n = some k → ∃ last, readings[k]? = some last ∧
        Fired lag last.timers [] st t' ∧ t'.1.timers.popDue last.timers = none)
      fun _ _ => True := by
  unfold fireDue
  induction readings generalizing clock t with
  | nil => exact nofun
  | cons now readings ih =>
    obtain ⟨htimers, hframes⟩ := honward.of_mem List.mem_cons_self
    obtain ⟨hrest, hnext⟩ := honward.cons
    have hnow : clock ≤ now.timers := hclock now List.mem_cons_self
    simp only [handleAll, ends_bind]
    rw [ends_takeDue]
    cases hpop : t.1.timers.popDue now.timers with
    | none => -- no timer is due: here the firing ends
      rintro k ⟨⟩
      exact ⟨now, rfl, h.later hnow, hpop⟩
    | some due =>
      -- a timer is due, and its message is in hand until it has been handled
      obtain ⟨m, timers⟩ := due
      have hposting : clock ≤ now.posting := by omega
      obtain ⟨hm, htaken⟩ := (h.later hposting).taken hpop
      simp only [ends_bind, ends_pure]
      have hheard : (handle P.recorded now m).Ends ({ t.1 with timers }, t.2)
          (fun _ t' => Fired lag now.posting [] st t') fun _ _ => True :=
        htaken.heard hm hframes (hlag now List.mem_cons_self)
      refine hheard.imp ?_ fun _ _ _ => trivial
      intro _ t' ht'
      refine (ih ht' hrest hnext fun now hmem => hlag now (List.mem_cons_of_mem _ hmem)).imp ?_
        fun _ _ _ => trivial
      rintro n t'' hn k hk
      obtain ⟨k', rfl, rfl⟩ := Option.map_eq_some_iff.mp hk
      exact hn k' rfl

/-- If no time passes between two looks at the clock, the frames whose time has come have been
presented when all due timers are heard, each once and in their order, and the others still wait. -/
theorem fireDue_presents_due {readings : List Readings} (h : Fired 0 clock [] st st)
    (honward : Onward readings) (hclock : ∀ now ∈ readings, clock ≤ now.timers)
    (hlag : ∀ now ∈ readings, now.posting = now.frames) :
    let queue := st.1.scheduler.queue
    (fireDue P.recorded readings).Ends st
      (fun n t => ∀ k, n = some k → ∃ last, readings[k]? = some last ∧ t.1.stopped = false ∧
        t.1.scheduler.queue = queue.filter (last.timers < ·.pts) ∧
        (frames t.2).offered =
          (frames st.2).offered ++ (queue.filter (·.pts ≤ last.timers)).map (·.slot))
      fun _ _ => True := by
  intro queue
  have hfired := fireDue_fired (P := P) h honward hclock fun now hnow => by
    rw [hlag now hnow]
    omega
  refine hfired.imp ?_ fun _ _ _ => trivial
  rintro n t hn k hk
  obtain ⟨last, hlast, hfired, hpop⟩ := hn k hk
  obtain ⟨first, hqueue, hdue, hoffered⟩ := hfired.shown
  -- with no time between two looks `lag` is nothing, and what still waits is still to come
  have hahead (f : DecodedOutput) (hf : f ∈ t.1.scheduler.queue) : last.timers < f.pts := by
    have hpts := hfired.inTime.ahead (Int.le_refl _) hpop f hf
    omega
  have hfirst : queue.filter (·.pts ≤ last.timers) = first := by
    show st.1.scheduler.queue.filter _ = first
    rw [hqueue, List.filter_append, List.filter_eq_self.mpr, List.filter_eq_nil_iff.mpr,
      List.append_nil]
    · intro f hf
      simpa using hahead f hf
    · intro f hf
      simpa using hdue f hf
  refine ⟨last, hlast, hfired.running, ?_, ?_⟩
  · show _ = st.1.scheduler.queue.filter _
    rw [hqueue, List.filter_append, List.filter_eq_nil_iff.mpr, List.filter_eq_self.mpr,
      List.nil_append]
    · intro f hf
      simpa using hahead f hf
    · intro f hf
      simpa using hdue f hf
  · rw [hfirst]
    exact hoffered

end Firing

end Playout.Session
