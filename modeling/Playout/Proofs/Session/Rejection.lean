import Playout.Platform.Simulated
import Playout.Proofs.Session.Settled

/-!
# Messages that are rejected

A fault that does not end the session rejects the message that it belongs to: one that names a track
which does not exist or is not set up, sets a track up twice, or comes when a decoder or an output
cannot be had. The tracks, their renderers, the timers and the retries are then as they were before,
also where a handler came some way before it gave up, and the retries after the message find nothing
to do in a settled session.

    rejected_leaves : of a rejected message a session keeps nothing but the count of a unit

The count is an exception: a unit is counted before its track is looked up.
-/

namespace Playout.Session

open Playout.Action

variable {σ : Type} {P : Platform σ} {now : Readings} {m : Message} {s : Session} {w : World σ}

/-- The session that has counted the unit of a message, if there is one. -/
def counting (s : Session) : Message → Session
  | .queueUnit _ _ => { s with accessUnits := s.accessUnits + 1 }
  | _ => s

/-- What a fault leaves behind that does not end the session. -/
def Leaves (s' : Session) (e : Fault) (st : Session × World σ) : Prop :=
  e.isFatal = true ∨ st.1.stopped = true ∨ st.1 = s'

/-- An action whose faults are all fatal rejects nothing: a message is rejected before it, where its
track is looked up. -/
theorem withPipeline_leaves {a : DecoderDevice (World σ) → Pipeline.Step (World σ) Unit}
    (ha : ∀ device r, (a device).Ends r (fun _ _ => True) fun e _ => e.isFatal = true)
    (track : Nat) : (withPipeline P track a).Ends (s, w) (fun _ _ => True) (Leaves s) := by
  refine ends_withPipeline track a (fun t p _ _ => ?_) (fun _ => Or.inr (Or.inr rfl))
    fun _ _ _ => Or.inr (Or.inr rfl)
  rw [ends_onPipeline]
  exact (ha _ _).imp (fun _ _ _ => trivial) fun _ _ he => Or.inl he

/-- Where a message is rejected, at most a unit has been counted. -/
theorem dispatch_leaves (h : Settled s) (m : Message) :
    (dispatch P now m).Ends (s, w) (fun _ _ => True) (Leaves (s.counting m)) := by
  -- what is not fatal is found out before anything is done, but for the count of a unit; all that
  -- pipelines and renderers fail with is fatal
  cases m with
  | setFormat track format =>
    exact (ends_setFormat (C := fun _ => True) (F := fun _ => True) (Q := fun _ _ => True)
      (fun _ _ => ends_true _) trivial trivial (fun _ _ _ _ => trivial) (fun _ _ _ => trivial)
      fun _ _ _ _ _ => trivial).imp (fun _ _ h => h) fun _ _ he => Or.inr (Or.inr he.2)
  | queueUnit track unit =>
    simp only [dispatch, ends_bind, ends_update]
    refine withPipeline_leaves (s := s.counting (.queueUnit track unit))
      (a := (Pipeline.submit · unit)) (fun device r => ?_) track
    exact (Pipeline.submit_heeds (.of_armed r.1) unit).imp (fun _ _ _ => trivial) fun _ _ he => he
  | inputsAvailable track slots =>
    refine withPipeline_leaves (a := (Pipeline.inputsAvailable · slots)) (fun device r => ?_) track
    exact (Pipeline.inputsAvailable_heeds (.of_armed r.1) slots).imp (fun _ _ _ => trivial)
      fun _ _ he => he
  | outputReady track slot pts payload =>
    have hpipeline (r : Pipeline × World σ) :
        (Pipeline.outputReady slot pts payload).Ends r (fun _ _ => True)
          fun e _ => e.isFatal = true :=
      (Pipeline.outputReady_heeds (.of_armed r.1) slot pts payload).imp (fun _ _ _ => trivial)
        fun _ _ he => he
    refine ends_outputReady (fun p _ _ => ?_) (fun p _ hp => ?_) (fun _ => Or.inr (Or.inr rfl))
      fun _ _ _ => Or.inr (Or.inr rfl)
    · exact (hpipeline _).imp (fun _ _ _ => trivial) fun _ _ he => Or.inl he
    · refine (hpipeline _).imp (fun output r _ => ⟨fun hnone => ?_, fun pacer _ => ?_⟩)
        fun _ _ he => Or.inl he
      · -- the audio track would have no renderer
        have hpaired := h.fitted.paired
        rw [hnone, hp] at hpaired
        cases hpaired
      · exact (Pacer.enqueue_asks output).imp (fun _ _ _ => trivial) fun _ _ he => he
  | pushAudio =>
    refine ends_pushAudio (fun _ => trivial) fun pacer p _ _ => ?_
    refine (Pacer.push_owns (giveBack_heeds P .audio .release true) (fun _ _ _ h => h)
      (.of_armed p)).imp (fun _ _ _ => trivial) fun e r he => Or.inl ?_
    rcases he.2 with hfatal | ⟨reason, rfl⟩
    · exact hfatal
    · rfl
  | retryDecoder track =>
    simp only [dispatch, ends_bind]
    refine ends_disarmRetry (fun t htrack => ?_) fun hother => ?_
    · subst htrack
      refine ends_withPipeline_number t _ (fun p _ => ?_) fun hnone => Or.inr (Or.inr ?_)
      · rw [ends_onPipeline]
        exact Pipeline.retry_heeds.imp (fun _ _ _ => trivial) fun _ _ he => Or.inl he
      · -- a track that is not set up has no retry armed
        have hunarmed : s.retryArmed.get t = false := by
          by_contra harmed
          have hset := h.fitted.armed t (by simpa using harmed)
          rw [hnone] at hset
          cases hset
        show { s with retryArmed := s.retryArmed.set t false } = s
        rw [← hunarmed, PerTrack.set_get_self]
    · refine withPipeline_leaves (fun device r => ?_) track
      exact Pipeline.retry_heeds.imp (fun _ _ _ => trivial) fun _ _ he => he
  | renderVideo generation =>
    refine ends_renderVideo (fun _ => trivial) fun p _ _ => ?_
    exact (Scheduler.renderDue_owns (giveBack_heeds P .video .render true) now.frames
      (.of_armed p)).imp (fun _ _ _ => trivial) fun _ _ he => Or.inl he.2
  | shutdown =>
    exact (teardown_stops (s, w)).imp (fun _ _ _ => trivial) fun _ _ hr => Or.inr (Or.inl hr)

/-- Counting a unit marks nothing. -/
theorem counting_unmarked {t : Track} (h : Unmarked t s) (m : Message) :
    Unmarked t (s.counting m) := by
  cases m <;> exact h

/-- A rejected message leaves nothing behind but the count of its unit. -/
theorem handle_leaves {st later : Session × World σ} {e : Fault} (h : StoppedOrSettled st)
    (hhandle : handle P now m st = .error e later) (hminor : e.isFatal = false)
    (hrunning : later.1.stopped = false) :
    later.1 = { st.1.counting m with published := (st.1.counting m).counts } := by
  obtain ⟨s, w⟩ := st
  have hends : (handle P now m).Ends (s, w) (fun _ _ => True) fun e t =>
      e.isFatal = false → t.1.stopped = false →
        t.1 = { s.counting m with published := (s.counting m).counts } := by
    cases hstopped : s.stopped with
    | true => exact (ends_handle_stopped hstopped).mpr trivial
    | false =>
    have hsettled : Settled s := h.settled hstopped
    apply ends_handle_of hstopped
    refine (dispatch_leaves hsettled m).imp (fun _ _ _ => concludes_of_forall fun _ => trivial) ?_
    intro e t ht
    by_cases hfatal : e.isFatal = true
    · refine concludes_of_forall fun _ => ?_
      rw [if_pos hfatal]
      exact ends_of_forall (fun _ _ hminor => by simp [hfatal] at hminor)
        fun _ _ hminor => by simp [hfatal] at hminor
    simp only [if_neg hfatal]
    -- the dispatch has stopped the session, or left it as it was but for the count
    rcases ht.resolve_left hfatal with hstop | hleft
    · unfold Concludes
      rw [if_pos hstop]
      intro _ hrun
      exact absurd hstop (by simpa [shown] using hrun)
    · have hunmarked (u : Track) : Unmarked u t.1 := by
        rw [hleft]
        exact counting_unmarked (hsettled.unmarked u) m
      rw [concludes_iff, retried_unmarked hunmarked, ite_self]
      intro _ _
      show { t.1 with published := t.1.counts } = _
      rw [hleft]
  exact (ends_of_error hhandle).mp hends hminor hrunning

/-- **A rejected message changes nothing but the count of units.** After any run that has not
stopped the session, whatever its timers and its mailbox brought: if a message ends in a fault that
is not fatal, and the session is not stopped by it, then the tracks, their renderers, the timers,
the retries, the generation and all counts are exactly what they were, but that one unit more is
counted if the message brought a unit. -/
theorem rejected_changes_count_only (P : Platform σ) (tolerance : Int) (devices : σ)
    (events : List (Event σ)) (now : Readings) (m : Message) (e : Fault)
    (later : Session × World (Recorded σ))
    (hhandle : handle P.recorded now m (afterEvents P tolerance devices events) = .error e later)
    (hminor : e.isFatal = false) (hrunning : later.1.stopped = false) :
    let s := (afterEvents P tolerance devices events).1
    ((∀ track unit, m ≠ .queueUnit track unit) → later.1 = s) ∧
      ∀ track unit, m = .queueUnit track unit → later.1 =
        { s with
          accessUnits := s.accessUnits + 1
          published := { s.published with accessUnits := s.published.accessUnits + 1 } } := by
  intro s
  have hsettled := afterEvents_settled P tolerance devices events
  have hleft := handle_leaves hsettled hhandle hminor hrunning
  -- a session that has stopped rejects nothing
  have hbefore : s.stopped = false := by
    by_contra hstopped
    rw [handle_stopped (by simpa using hstopped)] at hhandle
    cases hhandle
  have hshown : s.published = s.counts := (hsettled.settled hbefore).published
  rw [hleft]
  refine ⟨fun hother => ?_, ?_⟩
  · have hsame : s.counting m = s := by
      cases m <;> first | rfl | exact absurd rfl (hother _ _)
    show { s.counting m with published := (s.counting m).counts } = s
    rw [hsame, ← hshown]
  · rintro track unit rfl
    rw [hshown]
    rfl

/-- Both tracks wait with an output, one with a unit, and a retry is armed: nothing of this is
touched by a second format for the video, and one count alone by a unit for a track that does not
exist. -/
theorem busyRun_unchanged :
    let st :=
      afterEvents (Simulation.platform {}) 0 { faults := { busyQueues := 1 } } busyAndWaiting
    (∃ later, handle (Simulation.platform {}).recorded (.still 5)
        (.setFormat 0 (.video "video/avc" 64 64)) st = .error (.alreadyConfigured 0) later ∧
      (Fault.alreadyConfigured 0).isFatal = false ∧ later.1.stopped = false ∧ later.1 = st.1) ∧
    ∃ later, handle (Simulation.platform {}).recorded (.still 5) (.queueUnit 7 ⟨0, [9]⟩) st =
        .error (.unknownTrack 7) later ∧
      (Fault.unknownTrack 7).isFatal = false ∧ later.1.stopped = false ∧
        later.1.pipelines = st.1.pipelines ∧ later.1.accessUnits = st.1.accessUnits + 1 := by
  intro st
  obtain ⟨format, hformat, hformatRuns⟩ : ∃ later,
      handle (Simulation.platform {}).recorded (.still 5)
        (.setFormat 0 (.video "video/avc" 64 64)) st = .error (.alreadyConfigured 0) later ∧
      later.1.stopped = false := ⟨_, rfl, rfl⟩
  obtain ⟨unit, hunit, hunitRuns⟩ : ∃ later,
      handle (Simulation.platform {}).recorded (.still 5) (.queueUnit 7 ⟨0, [9]⟩) st =
        .error (.unknownTrack 7) later ∧ later.1.stopped = false := ⟨_, rfl, rfl⟩
  refine ⟨⟨format, hformat, rfl, hformatRuns, ?_⟩, unit, hunit, rfl, hunitRuns, ?_⟩
  · exact (rejected_changes_count_only _ _ _ _ _ _ _ _ hformat rfl hformatRuns).1 nofun
  · have hcounted := (rejected_changes_count_only _ _ _ _ _ _ _ _ hunit rfl hunitRuns).2 7 _ rfl
    rw [hcounted]
    exact ⟨rfl, rfl⟩

/-- A unit for a track that is not set up is rejected, and counted. -/
theorem unsetTrack_counted :
    let st := afterEvents (Simulation.platform {}) 0 {} []
    ∃ later, handle (Simulation.platform {}).recorded (.still 0) (.queueUnit 1 ⟨0, [1]⟩) st =
        .error (.notConfigured 1) later ∧ (Fault.notConfigured 1).isFatal = false ∧
      st.1.stopped = false ∧ later.1.stopped = false ∧
        st.1.counts.accessUnits = 0 ∧ later.1.counts.accessUnits = 1 :=
  ⟨_, rfl, rfl, rfl, rfl, rfl, rfl⟩

end Playout.Session
