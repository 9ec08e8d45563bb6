import Playout.Platform.Simulated
import Playout.Proofs.Session.Handling
import Playout.Proofs.Session.Holding

/-!
# Whether a teardown is complete

A teardown goes from `Stopping` through `Closing`, one pipeline after the other, to the end where it
is `Closed`, unless a decoder breaks it off. `Endings` says what is known of the record then, and
`afterEvents_outcome` carries that through every run: a session holds what it should, or it has
stopped with an outcome that its last teardown led to.

```
stopped_tornDown_iff : stopped → (TornDown calls ↔ .createAudio false ∉ calls ∧ ¬ LastRefused calls)
```

`busyStop_not_tornDown` is a run in which the second condition fails.
-/

namespace Playout.Session

open Playout.Action

variable {σ : Type} {st : Session × World (Recorded σ)} {done : PerTrack Bool}

/-! ## The steps of a teardown -/

/-- Marked as stopped, and still holding what it held. -/
def Stopping (st : Session × World (Recorded σ)) : Prop := st.1.stopped = true ∧ Alive st

/-- The pipelines in `done` have been torn down. -/
structure Closing (done : PerTrack Bool) (st : Session × World (Recorded σ)) : Prop where
  stopped : st.1.stopped = true
  sound : ∀ t p, done.get t = false → st.1.pipelines.get t = some p → ∃ held, p.Sound held []
  paired : st.1.pacer.isSome = st.1.pipelines.audio.isSome
  books : Books st.1.configured done st.2

/-- A decoder has refused its part. -/
structure BrokenOff (st : Session × World (Recorded σ)) : Prop where
  stopped : st.1.stopped = true
  surface : st.2.devices.calls.count .stopSurface = 0
  refused : Refused st.2

/-- Stopped, with a record that is final. -/
def Finished (st : Session × World (Recorded σ)) : Prop :=
  st.1.stopped = true ∧ Settled st.2.devices.calls

/-- The frames that wait are given back, or a refusal breaks the teardown off. -/
theorem releaseVideo_ends (P : Platform σ) (h : Stopping st) :
    (releaseVideo P.recorded).Ends st (fun _ st => Stopping st) fun _ st => BrokenOff st := by
  obtain ⟨s, w⟩ := st
  refine ends_releaseVideo (fun _ => h) fun p hp => ?_
  exact (Scheduler.releaseAll_owns (giveBack_givesAway P .video .release s) (h.2.keeping hp)).imp
    (fun _ r hr => ⟨h.1, h.2.withVideo hp hr⟩) fun _ r hr => ⟨h.1, hr.1.2.surface, hr.2⟩

/-- The buffers that wait are given back, or a refusal breaks the teardown off. -/
theorem releaseAudio_ends (P : Platform σ) (h : Stopping st) :
    (releaseAudio P.recorded).Ends st (fun _ st => Stopping st) fun _ st => BrokenOff st := by
  obtain ⟨s, w⟩ := st
  refine ends_releaseAudio (fun _ => h) fun pacer p hpacer hp => ?_
  exact (Pacer.releaseAll_owns (giveBack_givesAway P .audio .release s)
    (h.2.keeping_pacer hpacer hp)).imp
    (fun _ r hr => ⟨h.1, h.2.withAudio hp hr⟩) fun _ r hr => ⟨h.1, hr.1.2.surface, hr.2⟩

/-- The decoder of a track is stopped and released, if there is one. -/
theorem teardownPipeline_ends (P : Platform σ) (t : Track) (h : Closing done st)
    (ht : done.get t = false) :
    (teardownPipeline P.recorded t).Ends st (fun _ st => Closing (done.set t true) st)
      fun _ st => BrokenOff st := by
  obtain ⟨s, w⟩ := st
  have hother {u : Track} (hu : (done.set t true).get u = false) : u ≠ t ∧ done.get u = false := by
    cases t <;> cases u <;> simp_all [PerTrack.get, PerTrack.set]
  -- a track that is not set up has no decoder to end
  refine ends_teardownPipeline (fun hp => ?_) fun p hp => ?_
  · have hunset : s.configured.get t = false := by rw [configured_get, hp]; rfl
    exact ⟨h.stopped, fun u p hu => h.sound u p (hother hu).2, h.paired,
      h.books.ended_unset hunset⟩
  · obtain ⟨held, hsound⟩ := h.sound t p ht hp
    have hset : s.configured.get t = true := by rw [configured_get, hp]; rfl
    have hconfigured (r : Pipeline) : (s.withTrack t r).configured = s.configured :=
      configured_renew hp rfl
    refine (Pipeline.teardown_ends (recorded_follows P t s.configured done)
      ⟨hsound, h.books⟩).imp ?_ ?_
    · rintro _ ⟨r, _⟩ ⟨w', hbooks, -, rfl⟩
      refine ⟨h.stopped, fun u q hu hq => ?_, ?_, ?_⟩
      -- the tracks that are still to come have not changed
      · obtain ⟨hne, hu⟩ := hother hu
        exact h.sound u q hu ((s.pipelines.get_set_of_ne hne _).symm.trans hq)
      · exact h.paired.trans (congrArg PerTrack.audio (hconfigured r)).symm
      · rw [hconfigured, Books, recorded_call, recorded_call, made_decoder]
        exact hbooks.ended_track hset ht _ _
    · -- a slot was refused, or the stop or the release was: the surface is out of reach
      rintro _ ⟨r, w'⟩ (⟨hbooks, hrefused⟩ | ⟨w'', hbooks, rfl, hrefused⟩)
      · exact ⟨h.stopped, hbooks.surface, hrefused⟩
      · refine ⟨h.stopped, ?_, hrefused⟩
        rw [recorded_call]
        simpa using hbooks.surface

/-- The decoder of the track that was created last accepted its stop, and was released then. -/
def Ended (t : Track) (calls : List DeviceCall) : Prop :=
  ∃ refusal, [.decoder t (made t calls) .release refusal,
    .decoder t (made t calls) .stop none] <:+: calls

/-- The tracks in `done` that are set up have ended. -/
def Parted (done : PerTrack Bool) (st : Session × World (Recorded σ)) : Prop :=
  ∀ t, done.get t = true → st.1.configured.get t = true → Ended t st.2.devices.calls

/-- A release right after an accepted stop ends the decoder. -/
theorem Ended.of_released (t : Track) (calls : List DeviceCall) (refusal : Option DecoderError) :
    Ended t (.decoder t (made t calls) .release refusal ::
      .decoder t (made t calls) .stop none :: calls) := by
  refine ⟨refusal, ?_⟩
  rw [made_decoder, made_decoder]
  exact (List.prefix_append [_, _] calls).isInfix

/-- Once a decoder has ended, later calls to decoders do not matter. -/
theorem Ended.decoder {t u : Track} {calls : List DeviceCall} (h : Ended t calls) (serial : Nat)
    (c : DecoderCall) (refusal : Option DecoderError) :
    Ended t (.decoder u serial c refusal :: calls) := by
  obtain ⟨refusal', hended⟩ := h
  refine ⟨refusal', ?_⟩
  rw [made_decoder]
  exact List.infix_cons hended

/-- If the teardown of a track comes to its end, its decoder has ended, besides those that had
before. -/
theorem teardownPipeline_parted (P : Platform σ) (t : Track) (h : Closing done st)
    (ht : done.get t = false) (hparted : Parted done st) :
    (teardownPipeline P.recorded t).Ends st (fun _ st => Parted (done.set t true) st)
      fun _ _ => True := by
  obtain ⟨s, w⟩ := st
  apply ends_teardownPipeline
  · intro hp u hu hset
    by_cases hut : u = t
    · rw [hut, configured_get, hp] at hset
      cases hset
    · rw [done.get_set_of_ne hut] at hu
      exact hparted u hu hset
  · intro p hp
    obtain ⟨held, hsound⟩ := h.sound t p ht hp
    -- the decoders that have ended stay so during the calls to this one
    have hfollows : (P.recorded.decoderDevice t).Follows (fun w' => ∀ u, done.get u = true →
        s.configured.get u = true → Ended u w'.devices.calls) fun _ => True := by
      refine ⟨fun c w' _ hw' u hu hset => ?_, fun _ _ _ _ => trivial⟩
      rw [recorded_call]
      exact (hw' u hu hset).decoder _ _ _
    have hteardown := Pipeline.teardown_ends hfollows (t := (p, w)) ⟨hsound, hparted⟩
    refine hteardown.imp ?_ fun _ _ _ => trivial
    rintro _ ⟨r, _⟩ ⟨w', hw', hstopped, rfl⟩ u hu hset
    have hsame : (s.withTrack t r).configured = s.configured := configured_renew hp rfl
    rw [hsame] at hset
    show Ended u ((P.recorded.decoderDevice t).call .release
      ((P.recorded.decoderDevice t).call .stop w').2).2.devices.calls
    -- the last two calls are the release and, before it, the stop that was accepted
    rw [recorded_call, recorded_call, made_decoder, hstopped]
    by_cases hut : u = t
    · rw [hut]
      exact .of_released t w'.devices.calls _
    · rw [done.get_set_of_ne hut] at hu
      exact ((hw' u hu hset).decoder _ _ _).decoder _ _ _

/-- The teardown came to its end: after the decoders, the outputs were stopped. -/
structure Closed (st : Session × World (Recorded σ)) : Prop where
  stopped : st.1.stopped = true
  calls : ∃ before, Ledger st.1.configured (.both true) before ∧
    (∀ t, st.1.configured.get t = true → Ended t before) ∧
    st.2.devices.calls = .stopSurface ::
      if st.1.configured.get .audio = true then .stopAudio :: before else before

/-- The audio output is stopped if there is one, and then the surface. -/
theorem stopOutputs_calls (P : Platform σ) (st : Session × World (Recorded σ)) :
    (stopOutputs P.recorded st).2.devices.calls = .stopSurface ::
      if st.1.pacer.isSome = true then .stopAudio :: st.2.devices.calls
      else st.2.devices.calls := by
  unfold stopOutputs
  split <;> rfl

/-- A teardown comes to its end, or a decoder breaks it off. -/
theorem teardown_closes (P : Platform σ) (h : Running st) :
    (teardown P.recorded).Ends st (fun _ st => Closed st) fun _ st => BrokenOff st := by
  obtain ⟨s, w⟩ := st
  have hstopped : s.stopped = false := h.1
  rw [ends_teardown hstopped]
  -- the slots that the renderers hold
  refine (releaseVideo_ends P ⟨rfl, ?_⟩).imp (fun _ st hst => ?_) fun _ _ hst => hst
  · exact ⟨h.2.sound, h.2.idle, h.2.paired, h.2.books⟩
  refine (releaseAudio_ends P hst).imp (fun _ st hst => ?_) fun _ _ hst => hst
  -- the decoders, one track after the other
  have hclosing : Closing (.both false) st :=
    ⟨hst.1, fun t p _ hp => ⟨_, hst.2.sound t p hp⟩, hst.2.paired, hst.2.books⟩
  have hparted : Parted (.both false) st := by
    intro t ht
    simp at ht
  refine ((teardownPipeline_ends P .video hclosing rfl).and
    (teardownPipeline_parted P .video hclosing rfl hparted)).imp (fun _ st hst => ?_)
    fun _ _ hst => hst.1
  refine ((teardownPipeline_ends P .audio hst.1 rfl).and
    (teardownPipeline_parted P .audio hst.1 rfl hst.2)).imp (fun _ st hst => ?_)
    fun _ _ hst => hst.1
  obtain ⟨hclosing, hparted⟩ := hst
  -- both tracks are done: the outputs are stopped whatever they answer
  have hended (t : Track) (ht : st.1.configured.get t = true) : Ended t st.2.devices.calls :=
    hparted t (by cases t <;> rfl) ht
  refine ⟨hclosing.stopped, _, hclosing.books, hended, ?_⟩
  have haudio : st.1.pacer.isSome = st.1.configured.get .audio := hclosing.paired
  rw [stopOutputs_calls, haudio]
  rfl

/-! ## Runs -/

/-- What may hold of the tracks that are set up and of the record, when a session has stopped. -/
abbrev Outcome := PerTrack Bool → List DeviceCall → Prop

/-- A session runs and holds what it should, or it has stopped with the outcome `Q`. -/
def RunningOr (Q : Outcome) (st : Session × World (Recorded σ)) : Prop :=
  Running st ∨ st.1.stopped = true ∧ Q st.1.configured st.2.devices.calls

/-- How a teardown ends: well with the outcome `Q`, in a fault with `K`, and with `G` if the fault
is one that a run passes over. -/
structure Endings (P : Platform σ) (Q G K : Outcome) : Prop where
  torn : ∀ st, Running st → (teardown P.recorded).Ends st (fun _ st => RunningOr Q st)
    fun e st => RunningOr K st ∧ (e.isFatal = false → RunningOr G st)
  passed : ∀ tracks calls, G tracks calls → Q tracks calls
  known : ∀ tracks calls, Q tracks calls → K tracks calls

/-- From a session that runs or has the outcome `Q`, the action ends as a teardown does. -/
def Closes {α : Type} (Q G K : Outcome) (a : Step (Recorded σ) α) : Prop :=
  ∀ st, RunningOr Q st → a.Ends st (fun _ st => RunningOr Q st)
    fun e st => RunningOr K st ∧ (e.isFatal = false → RunningOr G st)

section Outcomes

variable {Q G K : Outcome}

/-- A weaker outcome. -/
theorem RunningOr.mono {Q' : Outcome} (h : RunningOr Q st)
    (hQ : ∀ tracks calls, Q tracks calls → Q' tracks calls) : RunningOr Q' st := by
  rcases h with hrunning | ⟨hstopped, houtcome⟩
  · exact Or.inl hrunning
  · exact Or.inr ⟨hstopped, hQ _ _ houtcome⟩

/-- A session that has not stopped runs. -/
theorem RunningOr.running (h : RunningOr Q st) (hstopped : st.1.stopped = false) : Running st :=
  h.resolve_right fun hover => by simp [hover.1] at hstopped

/-- Timers, counts and the mailbox do not matter. -/
theorem RunningOr.frame {st st' : Session × World (Recorded σ)} (h : RunningOr Q st)
    (hstopped : st'.1.stopped = st.1.stopped) (hpipelines : st'.1.pipelines = st.1.pipelines)
    (hscheduler : st'.1.scheduler = st.1.scheduler) (hpacer : st'.1.pacer = st.1.pacer)
    (hcalls : st'.2.devices.calls = st.2.devices.calls) : RunningOr Q st' := by
  rcases h with h | h
  · exact Or.inl (h.frame hstopped hpipelines hscheduler hpacer hcalls)
  · refine Or.inr ⟨hstopped.trans h.1, ?_⟩
    rw [configured, hpipelines, hcalls]
    exact h.2

/-- Between a message and what follows it there may be retries, if the session runs. -/
theorem ends_retries {now : Readings} {R : Session × World (Recorded σ) → Prop}
    {E : Fault → Session × World (Recorded σ) → Prop}
    (hrunning : st.1.stopped = false → Running st) (hstopped : st.1.stopped = true → R st)
    (hR : ∀ st, Running st → R st) (hE : ∀ e st, Running st → E e st) :
    if st.1.stopped = true then R st
    else (scheduleRetry now.retry.video .video).Ends st
      (fun _ st => (scheduleRetry now.retry.audio .audio).Ends st (fun _ st => R st) E) E := by
  split
  · next hstop => exact hstopped hstop
  · next hrun =>
    refine (scheduleRetry_running _ .video).ends (hrunning (by simpa using hrun))
      (fun _ st hst => ?_) hE
    exact (scheduleRetry_running _ .audio).ends hst (fun _ st hst => hR st hst) hE

variable {P : Platform σ} (hend : Endings P Q G K)
include hend

/-- What is known of every way in which a teardown ends is an outcome by itself. -/
theorem Endings.coarse : Endings P K K K where
  torn st h := (hend.torn st h).imp (fun _ _ hst => hst.mono hend.known)
    fun _ _ hst => ⟨hst.1, fun _ => hst.1⟩
  passed _ _ h := h
  known _ _ h := h

/-- Only the first teardown does anything; the outcome is kept by a second one. -/
theorem teardown_outcome : Closes Q G K (teardown P.recorded) := by
  rintro st (h | h)
  · exact hend.torn st h
  · exact (ends_teardown_stopped h.1).mpr (Or.inr h)

/-- The outcome is known, whether the teardown ends well or not. -/
theorem teardown_known (h : RunningOr K st) :
    (teardown P.recorded).Ends st (fun _ st => RunningOr K st) fun _ st => RunningOr K st := by
  rcases h with h | h
  · exact (hend.torn st h).imp (fun _ _ hst => hst.mono hend.known) fun _ _ hst => hst.1
  · exact (ends_teardown_stopped h.1).mpr (Or.inr h)

/-- Only a shutdown tears the session down; every other message leaves it running, whether it fails
or not. -/
theorem dispatch_outcome (now : Readings) (m : Message) (h : Running st) :
    (dispatch P.recorded now m).Ends st (fun _ st => RunningOr Q st)
      fun e st => RunningOr K st ∧ (e.isFatal = false → RunningOr G st) := by
  by_cases hm : m = .shutdown
  · subst hm
    exact hend.torn st h
  · apply (dispatch_running P now hm).ends h
    · intro _ st hst
      exact Or.inl hst
    · intro _ st hst
      exact ⟨Or.inl hst, fun _ => Or.inl hst⟩

/-- A fatal fault is followed by a teardown, whose outcome is known, and the fault stays the
answer. -/
theorem handle_outcome (now : Readings) (m : Message) :
    Closes Q G K (handle P.recorded now m) := by
  intro st h
  simp only [handle, ends_bind, ends_get, ends_ite, ends_pure, ends_attempt, ends_publish,
    ends_throw]
  split
  · exact h
  next hstopped =>
  refine (dispatch_outcome hend now m (h.running (by simpa using hstopped))).imp ?_ ?_
  · intro _ st hst
    refine ends_retries hst.running ?_ ?_ fun e st hst => ?_
    · intro _
      exact hst.frame rfl rfl rfl rfl rfl
    · intro st hrun
      exact RunningOr.frame (Or.inl hrun) rfl rfl rfl rfl rfl
    · exact ⟨Or.inl hst, fun _ => Or.inl hst⟩
  · rintro e st ⟨hknown, hpassed⟩
    -- a fatal fault leads to a teardown, and stays the answer
    have hfault (st : Session × World (Recorded σ)) (hknown : RunningOr K st)
        (hpassed : e.isFatal = false → RunningOr G st) :
        if e.isFatal = true then
          (teardown P.recorded).Ends ({ st.1 with published := st.1.counts }, st.2)
            (fun _ st => RunningOr K st ∧ (e.isFatal = false → RunningOr G st))
            fun _ st => RunningOr K st ∧ (e.isFatal = false → RunningOr G st)
        else
          RunningOr K ({ st.1 with published := st.1.counts }, st.2) ∧
            (e.isFatal = false → RunningOr G ({ st.1 with published := st.1.counts }, st.2)) := by
      split
      · next hfatal =>
        have hnever {R : Prop} (hminor : e.isFatal = false) : R := by simp [hfatal] at hminor
        have hpublished : RunningOr K ({ st.1 with published := st.1.counts }, st.2) :=
          hknown.frame rfl rfl rfl rfl rfl
        exact (teardown_known hend hpublished).imp (fun _ _ hst => ⟨hst, hnever⟩)
          fun _ _ hst => ⟨hst, hnever⟩
      -- a fault that is not fatal is passed on with the outcome that it came with
      · exact ⟨hknown.frame rfl rfl rfl rfl rfl,
          fun hminor => (hpassed hminor).frame rfl rfl rfl rfl rfl⟩
    refine ends_retries hknown.running ?_ ?_ fun e st hst => ?_
    · intro _
      exact hfault st hknown hpassed
    · intro st hrun
      exact hfault st (Or.inl hrun) fun _ => Or.inl hrun
    · exact ⟨Or.inl hst, fun _ => Or.inl hst⟩

omit hend in
/-- Taking a timer calls no device. -/
theorem takeDue_outcome (time : Int) :
    Closes Q G K (takeDue time : Step (Recorded σ) (Option Message)) := by
  intro st h
  rw [ends_takeDue]
  split
  · exact h
  · exact h.frame rfl rfl rfl rfl rfl

omit hend in
/-- Taking a message calls no device. -/
theorem takeMail_outcome : Closes Q G K (takeMail : Step (Recorded σ) (Option Message)) := by
  intro st h
  rw [ends_takeMail]
  split
  · exact h
  · exact h.frame rfl rfl rfl rfl rfl

/-- The outcome carries over from message to message. -/
theorem handleAll_outcome {take : Readings → Step (Recorded σ) (Option Message)}
    (htake : ∀ now, Closes Q G K (take now)) (clock : List Readings) :
    Closes Q G K (handleAll P.recorded take clock) := by
  apply handleAll_ends (J := fun _ => RunningOr Q)
  · intro now st h
    exact (htake now st h).imp (fun _ _ hst => ⟨fun _ => hst, fun _ _ => hst⟩) fun _ _ hst => hst
  · intro now m st h
    exact handle_outcome hend now m st h

/-- Firing timers ends as a teardown does. -/
theorem fireDue_outcome (clock : List Readings) : Closes Q G K (fireDue P.recorded clock) :=
  handleAll_outcome hend (fun now => takeDue_outcome now.timers) clock

/-- Draining the mailbox ends as a teardown does. -/
theorem drainMailbox_outcome (mail due : List Readings) :
    Closes Q G K (drainMailbox P.recorded mail due) := by
  intro st h
  apply drainMailbox_ends (handleAll_outcome hend (fun _ => takeMail_outcome) mail st h)
  intro st hst
  exact fireDue_outcome hend due st hst

/-- A fault that is passed over leaves an outcome that is as good as any. -/
theorem skipRejected_outcome {a : Step (Recorded σ) (Option Nat)} (ha : Closes Q G K a) :
    Closes Q G K (skipRejected a) := by
  intro st h
  simp only [skipRejected, ends_bind, ends_attempt]
  refine (ha st h).imp (fun _ _ hst => hst) fun e _ hst => ?_
  simp only [ends_ite, ends_throw, ends_pure]
  split
  · exact hst
  · next hminor => exact (hst.2 (by simpa using hminor)).mono hend.passed

/-- The loop ends as a teardown does, by induction on its rounds. -/
theorem loop_outcome (clock : List Round) : Closes Q G K (loop P.recorded clock) := by
  induction clock with
  | nil =>
    intro st h
    exact h
  | cons now clock ih =>
    intro st h
    have hhandle (m : Message) : Closes Q G K (skipRejected do
        handle P.recorded now.mail m
        return some 1) := by
      refine skipRejected_outcome hend fun st h => ?_
      simp only [ends_bind, ends_pure]
      exact handle_outcome hend now.mail m st h
    simp only [loop, ends_bind, ends_get, ends_ite, ends_pure]
    refine (skipRejected_outcome hend (fireDue_outcome hend now.due) st h).imp
      (fun n st hst => ?_) fun _ _ hst => hst
    -- the loop ends if timers keep coming due, or if one of them has stopped the session
    split
    · exact hst
    split
    · exact hst
    refine (takeMail_outcome st hst).imp (fun next st hst => ?_) fun _ _ hst => hst
    cases next with
    | none =>
      simp only [ends_ite, ends_pure]
      split
      · exact ih st hst
      · exact hst
    | some m =>
      simp only [ends_bind, ends_get, ends_ite, ends_pure]
      refine (hhandle m st hst).imp (fun _ st hst => ?_) fun _ _ hst => hst
      split
      · exact hst
      · exact ih st hst

/-- A run that answers has an outcome as good as that of a teardown that ends well. -/
theorem run_outcome (clock : List Round) (h : RunningOr Q st) :
    (run P.recorded clock).Ends st
      (fun counts st => RunningOr K st ∧ (counts ≠ none → RunningOr Q st))
      fun _ st => RunningOr K st := by
  simp only [run, ends_bind, ends_attempt, ends_throw]
  refine (loop_outcome hend clock st h).imp ?_ ?_
  -- the loop came to an end, so the teardown decides what the run answers
  · intro outcome st hst
    refine (teardown_outcome hend st hst).imp ?_ ?_
    · intro _ st hst
      cases outcome with
      | none => exact ⟨hst.mono hend.known, fun hne => absurd rfl hne⟩
      | some _ => exact ⟨hst.mono hend.known, fun _ => hst⟩
    · intro e st hst
      cases outcome with
      | none => exact ⟨hst.1, fun hne => absurd rfl hne⟩
      | some _ => exact hst.1
  -- the loop failed: its fault is answered, whatever the teardown brings
  · intro e st hst
    exact (teardown_known hend hst.1).imp (fun _ _ hst => hst) fun _ _ hst => hst

end Outcomes

/-! ## Every run -/

/-- What can happen to a session, and to the devices outside of it. -/
inductive Event (σ : Type) where
  | message (now : Readings) (m : Message)
  | timers (clock : List Readings)
  | mailbox (mail due : List Readings)
  | run (clock : List Round)
  | teardown
  /-- The devices move on by themselves, and may post messages. -/
  | devices (change : σ → σ) (posted : List Message)

/-- The session and its world after an event. -/
def Event.perform (P : Platform σ) : Event σ → Session × World (Recorded σ) →
    Session × World (Recorded σ)
  | .message now m => (handle P.recorded now m).stateAfter
  | .timers clock => (fireDue P.recorded clock).stateAfter
  | .mailbox mail due => (drainMailbox P.recorded mail due).stateAfter
  | .run clock => (Session.run P.recorded clock).stateAfter
  | .teardown => (Session.teardown P.recorded).stateAfter
  | .devices change posted => fun (s, w) =>
    (s, { devices := { w.devices with devices := change w.devices.devices }
          mailbox := w.mailbox ++ posted })

/-- A new session and its world after some events. -/
def afterEvents (P : Platform σ) (tolerance : Int) (devices : σ) (events : List (Event σ)) :
    Session × World (Recorded σ) :=
  events.foldl (fun st e => e.perform P st) (new tolerance, { devices := { devices } })

/-- What is kept by every event of a run holds after the run. -/
theorem events_induction {P : Platform σ} {events : List (Event σ)}
    {I : Session × World (Recorded σ) → Prop} (hst : I st)
    (hperform : ∀ e ∈ events, ∀ st, I st → I (e.perform P st)) :
    I (events.foldl (fun st e => e.perform P st) st) := by
  induction events generalizing st with
  | nil => exact hst
  | cons e events ih =>
    exact ih (hperform e List.mem_cons_self st hst)
      fun e' he' => hperform e' (List.mem_cons_of_mem _ he')

/-- What holds of a new session and is kept by every event of a run holds after the run. -/
theorem afterEvents_induction {P : Platform σ} {tolerance : Int} {devices : σ}
    {events : List (Event σ)} {I : Session × World (Recorded σ) → Prop}
    (hnew : I (new tolerance, { devices := { devices } }))
    (hperform : ∀ e ∈ events, ∀ st, I st → I (e.perform P st)) :
    I (afterEvents P tolerance devices events) :=
  events_induction hnew hperform

/-- More events, after some. -/
theorem afterEvents_append (P : Platform σ) (tolerance : Int) (devices : σ)
    (events more : List (Event σ)) : afterEvents P tolerance devices (events ++ more) =
      more.foldl (fun st e => e.perform P st) (afterEvents P tolerance devices events) :=
  List.foldl_append

/-- What is kept throughout is kept by every event that is not about the devices alone. -/
theorem Throughout.perform {P : Platform σ} {I : Session × World (Recorded σ) → Prop}
    (h : Throughout P.recorded I)
    (hdevices : ∀ s w change posted, I (s, w) →
      I ((Event.devices change posted : Event σ).perform P (s, w)))
    (e : Event σ) {st : Session × World (Recorded σ)} (hst : I st) : I (e.perform P st) := by
  cases e with
  | message now m => exact (h.message now m st hst).stateAfter
  | timers clock => exact (h.fireDue clock st hst).stateAfter
  | mailbox mail due => exact (h.drainMailbox mail due st hst).stateAfter
  | run clock => exact (h.run clock st hst).stateAfter
  | teardown => exact (h.teardown st hst).stateAfter
  | devices change posted => exact hdevices _ _ change posted hst

/-- A new session runs and holds nothing. -/
theorem new_running (tolerance : Int) (devices : σ) :
    Running (new tolerance, { devices := { devices } }) := by
  refine ⟨rfl, fun t p hp => ?_, fun t _ => ?_, rfl, Ledger.nil⟩
  · cases t <;> cases hp
  · cases t <;> rfl

/-- What is known of every way in which a teardown ends is known after every run. -/
theorem afterEvents_outcome {P : Platform σ} {Q G K : Outcome} (hend : Endings P Q G K)
    (tolerance : Int) (devices : σ) (events : List (Event σ)) :
    RunningOr K (afterEvents P tolerance devices events) := by
  -- between two events it is not known how the last one ended, so one outcome stands for all ways
  have hcoarse := hend.coarse
  have hsame {α : Type} {a : Step (Recorded σ) α} (ha : Closes K K K a)
      (st : Session × World (Recorded σ)) (h : RunningOr K st) : RunningOr K (a.stateAfter st) :=
    ((ha st h).imp (fun _ _ hst => hst) fun _ _ hst => hst.1).stateAfter
  apply afterEvents_induction
  · exact Or.inl (new_running tolerance devices)
  · intro e _ st h
    cases e with
    | message now m => exact hsame (handle_outcome hcoarse now m) st h
    | timers clock => exact hsame (fireDue_outcome hcoarse clock) st h
    | mailbox mail due => exact hsame (drainMailbox_outcome hcoarse mail due) st h
    | run clock =>
      exact ((run_outcome hcoarse clock h).imp (fun _ _ hst => hst.1)
        fun _ _ hst => hst).stateAfter
    | teardown => exact hsame (teardown_outcome hcoarse) st h
    | devices change posted => exact h.frame rfl rfl rfl rfl rfl

/-- A teardown ends with a final record, whatever the devices answer. -/
theorem settled_endings (P : Platform σ) :
    Endings P (fun _ => Settled) (fun _ => Settled) fun _ => Settled := by
  refine ⟨fun st h => (teardown_closes P h).imp ?_ ?_, fun _ _ h => h, fun _ _ h => h⟩
  · rintro _ st ⟨hstopped, before, hledger, -, hcalls⟩
    refine Or.inr ⟨hstopped, ?_⟩
    rw [hcalls]
    exact settled_of_ledger hledger
  · intro e st hst
    have hsettled : RunningOr (fun _ => Settled) st :=
      Or.inr ⟨hst.stopped, settled_of_refused hst.surface hst.refused⟩
    exact ⟨hsettled, fun _ => hsettled⟩

/-- A session either runs and holds what it should, or it has a record that is final. -/
def Orderly (st : Session × World (Recorded σ)) : Prop := Running st ∨ Finished st

/-- After every run a session runs and holds what it should, or its record is final. -/
theorem afterEvents_orderly (P : Platform σ) (tolerance : Int) (devices : σ)
    (events : List (Event σ)) : Orderly (afterEvents P tolerance devices events) :=
  afterEvents_outcome (settled_endings P) tolerance devices events

/-- **When a teardown is complete.** After any run that has stopped the session, whatever the
devices answered, every decoder that started was stopped once and released once, the audio output
was stopped once if it was created, and the surface was stopped once, if and only if the audio
output was never refused and the last call was not one that a decoder refused. -/
theorem stopped_tornDown_iff (P : Platform σ) (tolerance : Int) (devices : σ)
    (events : List (Event σ)) (h : (afterEvents P tolerance devices events).1.stopped = true) :
    TornDown (afterEvents P tolerance devices events).2.devices.calls ↔
      .createAudio false ∉ (afterEvents P tolerance devices events).2.devices.calls ∧
        ¬ LastRefused (afterEvents P tolerance devices events).2.devices.calls := by
  rcases afterEvents_orderly P tolerance devices events with hrunning | hfinished
  · exact absurd (hrunning.1.symm.trans h) (by decide)
  · exact hfinished.2

/-- Both tracks are set up, and the session is torn down. -/
def bothTracks : List (Event Simulation) :=
  [.message (.still 0) (.setFormat 0 (.video "video/avc" 64 64)),
    .message (.still 0) (.setFormat 1 (.audio "audio/raw" 48000 2)), .teardown]

/-- The simulated devices are all stopped. -/
theorem simulation_tornDown :
    (afterEvents (Simulation.platform {}) 0 {} bothTracks).1.stopped = true ∧
      TornDown (afterEvents (Simulation.platform {}) 0 {} bothTracks).2.devices.calls := by
  have hstopped : (afterEvents (Simulation.platform {}) 0 {} bothTracks).1.stopped = true := by
    decide +kernel
  have hhead : (afterEvents (Simulation.platform {}) 0 {} bothTracks).2.devices.calls.head? =
      some .stopSurface := by decide +kernel
  refine ⟨hstopped, (stopped_tornDown_iff _ _ _ _ hstopped).mpr ⟨by decide +kernel, ?_⟩⟩
  rintro ⟨t, serial, c, e, hrefused⟩
  rw [hhead] at hrefused
  cases hrefused

/-- The simulated platform, with a video decoder that is busy when it is told to stop. -/
def busyStop : Platform Simulation :=
  { Simulation.platform {} with
    decoder := fun t c s =>
      if t = .video ∧ c = .stop then ((throw .busy, []), s) else Simulation.decoder {} t c s }

/-- A decoder that refuses to stop keeps the devices behind it running. -/
theorem busyStop_not_tornDown :
    (afterEvents busyStop 0 {} bothTracks).1.stopped = true ∧
      ¬ TornDown (afterEvents busyStop 0 {} bothTracks).2.devices.calls := by
  refine ⟨by decide +kernel, fun ⟨_, _, hsurface⟩ => ?_⟩
  have hnone : (afterEvents busyStop 0 {} bothTracks).2.devices.calls.count .stopSurface = 0 := by
    decide +kernel
  rw [hnone] at hsurface
  cases hsurface

end Playout.Session
