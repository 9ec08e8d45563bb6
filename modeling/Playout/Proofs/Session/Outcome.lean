import Playout.Proofs.Decode.Retry
import Playout.Proofs.Session.Teardown

/-!
# What the answer of a session says

A decoder that is too busy to be stopped breaks a teardown off with a fault that is not fatal. The
session is stopped all the same, and `run` passes the fault over as if it were about one message.
After a handled message, and after a run that answers its counts,

```
handle : not fatal → (stopped ↔ StopPostponed calls)
run    : counts    → (Complete tracks calls ↔ ¬ LastRefused calls)
```

`postponed_passedOver` is a session whose answers say nothing of a teardown that broke off.
-/

namespace Playout.Session

open Playout.Action

variable {σ : Type} {st : Session × World (Recorded σ)}

/-- Each track that is set up has ended, and after that the outputs were stopped. -/
def Complete (tracks : PerTrack Bool) (calls : List DeviceCall) : Prop :=
  ∃ before, (∀ t, tracks.get t = true → Ended t before) ∧
    calls = .stopSurface :: if tracks.get .audio = true then .stopAudio :: before else before

/-- In the last call a decoder was too busy to be stopped. -/
def StopPostponed (calls : List DeviceCall) : Prop :=
  ∃ t serial, calls.head? = some (.decoder t serial .stop (some .busy))

/-- A complete teardown ends with the stop of the surface, which is not refused. -/
theorem Complete.not_refused {tracks : PerTrack Bool} {calls : List DeviceCall}
    (h : Complete tracks calls) : ¬ LastRefused calls := by
  rintro ⟨t, serial, c, e, hlast⟩
  obtain ⟨before, -, rfl⟩ := h
  cases hlast

/-- Without the stop of the surface a teardown is not complete. -/
theorem not_complete {tracks : PerTrack Bool} {calls : List DeviceCall}
    (h : calls.count .stopSurface = 0) : ¬ Complete tracks calls := by
  rintro ⟨before, -, rfl⟩
  simp at h

/-- A postponed stop is a refused call. -/
theorem StopPostponed.refused {calls : List DeviceCall} (h : StopPostponed calls) :
    LastRefused calls := by
  obtain ⟨t, serial, hlast⟩ := h
  exact ⟨t, serial, .stop, .busy, hlast⟩

/-- A running session has told no decoder to stop. -/
theorem Running.not_postponed (h : Running st) : ¬ StopPostponed st.2.devices.calls := by
  rintro ⟨t, serial, hlast⟩
  obtain ⟨older, hcalls⟩ : ∃ older,
      st.2.devices.calls = .decoder t serial .stop (some .busy) :: older := by
    cases hcalls : st.2.devices.calls with
    | nil => simp [hcalls] at hlast
    | cons c older =>
      rw [hcalls] at hlast
      obtain rfl := Option.some.inj hlast
      exact ⟨older, rfl⟩
  -- by the books the decoder of a running session has been told no stop
  have htold := h.2.books.ended t serial .stop (Or.inl rfl)
  rw [hcalls] at htold
  simp at htold

/-! ## The faults of a teardown -/

section Postponed

variable (P : Platform (Recorded σ))

/-- Returning a slot fails with a fault that ends the session, if at all. -/
theorem giveBack_fatal (t : Track) (kind : ReturnKind) :
    Passes (giveBack P t kind) (fun _ _ => True) fun e _ => e.isFatal = true := by
  intro slot _ r _
  exact (Pipeline.returnOutput_fatal slot kind r).imp (fun _ _ _ => trivial)
    fun _ _ he => ⟨trivial, he⟩

/-- Giving the frames back fails only with a fault that ends the session. -/
theorem releaseVideo_fatal (st : Session × World (Recorded σ)) :
    (releaseVideo P).Ends st (fun _ _ => True) fun e _ => e.isFatal = true := by
  apply ends_releaseVideo
  · intro _
    trivial
  · intro p _
    exact (Scheduler.releaseAll_owns (giveBack_fatal P .video .release) trivial).imp
      (fun _ _ _ => trivial) fun _ _ he => he.2

/-- Giving the audio back fails only with a fault that ends the session. -/
theorem releaseAudio_fatal (st : Session × World (Recorded σ)) :
    (releaseAudio P).Ends st (fun _ _ => True) fun e _ => e.isFatal = true := by
  apply ends_releaseAudio
  · intro _
    trivial
  · intro pacer p _ _
    exact (Pacer.releaseAll_owns (giveBack_fatal P .audio .release) trivial).imp
      (fun _ _ _ => trivial) fun _ _ he => he.2

end Postponed

/-- Tearing a pipeline down fails with a fatal fault, or because its decoder is too busy to be
stopped. -/
theorem teardownPipeline_postponed (P : Platform σ) (t : Track)
    (st : Session × World (Recorded σ)) :
    (teardownPipeline P.recorded t).Ends st (fun _ _ => True)
      fun e st => e.isFatal = true ∨ StopPostponed st.2.devices.calls := by
  apply ends_teardownPipeline
  · intro _
    trivial
  · intro p _
    refine Pipeline.teardown_postponed.imp (fun _ _ _ => trivial) ?_
    rintro e ⟨r, w⟩ (hfatal | ⟨w', hbusy, hw⟩)
    · exact Or.inl hfatal
    -- the stop that was answered with "busy" is the last call
    · obtain rfl : w = _ := hw
      refine Or.inr ⟨t, made t w'.devices.calls, ?_⟩
      rw [recorded_call, hbusy]
      rfl

/-- A teardown that fails without a fatal fault ends with a stop that a decoder is too busy for. -/
theorem teardown_postponed (P : Platform σ) (st : Session × World (Recorded σ)) :
    (teardown P.recorded).Ends st (fun _ _ => True)
      fun e st => e.isFatal = true ∨ StopPostponed st.2.devices.calls := by
  cases hstopped : st.1.stopped with
  | true => exact (ends_teardown_stopped hstopped).mpr trivial
  | false =>
  rw [ends_teardown hstopped]
  refine (releaseVideo_fatal P.recorded _).imp (fun _ st _ => ?_) fun _ _ he => Or.inl he
  refine (releaseAudio_fatal P.recorded st).imp (fun _ st _ => ?_) fun _ _ he => Or.inl he
  refine (teardownPipeline_postponed P .video st).imp (fun _ st _ => ?_) fun _ _ he => he
  exact (teardownPipeline_postponed P .audio st).imp (fun _ _ _ => trivial) fun _ _ he => he

/-- What is known when a session has stopped: the teardown was complete, or a decoder refused. -/
def Known : Outcome := fun tracks calls => Complete tracks calls ↔ ¬ LastRefused calls

/-- A teardown that a decoder postponed. -/
def Postponed : Outcome := fun tracks calls => Known tracks calls ∧ StopPostponed calls

/-- A teardown that went through, or that a decoder postponed. -/
def PassedOver : Outcome := fun tracks calls =>
  Known tracks calls ∧ (Complete tracks calls ∨ StopPostponed calls)

/-- The three ways in which a session may have stopped: what is known in each case of how far its
teardown came. -/
theorem postponed_endings (P : Platform σ) : Endings P PassedOver Postponed Known where
  torn st h := by
    apply ((teardown_closes P h).and (teardown_postponed P st)).imp
    · rintro _ st ⟨⟨hstopped, before, -, hended, hcalls⟩, -⟩
      have hcomplete : Complete st.1.configured st.2.devices.calls := ⟨before, hended, hcalls⟩
      exact Or.inr ⟨hstopped, iff_of_true hcomplete hcomplete.not_refused, Or.inl hcomplete⟩
    -- a teardown that broke off has not stopped the surface; without a fatal fault it was a stop
    -- that was put off
    · rintro e st ⟨hbroken, hpostponed⟩
      have hknown : Known st.1.configured st.2.devices.calls :=
        iff_of_false (not_complete hbroken.surface) (not_not_intro hbroken.refused)
      refine ⟨Or.inr ⟨hbroken.stopped, hknown⟩, fun hminor => ?_⟩
      have hfatal : ¬ e.isFatal = true := by simp [hminor]
      exact Or.inr ⟨hbroken.stopped, hknown, hpostponed.resolve_left hfatal⟩
  passed _ _ h := ⟨h.1, Or.inr h.2⟩
  known _ _ h := h.1

/-- **What the answers are worth.** After any run, whatever the devices answered: a message that is
refused without a fatal fault leaves the session stopped exactly if a decoder was too busy to be
stopped in the last call; and when `run` answers the counts, the teardown went through to its end
exactly if the last call was not one that a decoder refused. A session that `run` found running then
ended with a teardown that went through, unless a decoder was too busy to be stopped. -/
theorem answers_reliable_iff (P : Platform σ) (tolerance : Int) (devices : σ)
    (events : List (Event σ)) :
    let st := afterEvents P tolerance devices events
    (∀ now m, (handle P.recorded now m).Ends st (fun _ _ => True) fun e st' =>
      e.isFatal = false → (st'.1.stopped = true ↔ StopPostponed st'.2.devices.calls)) ∧
    ∀ clock, (run P.recorded clock).Ends st (fun counts st' => counts ≠ none →
      (Complete st'.1.configured st'.2.devices.calls ↔ ¬ LastRefused st'.2.devices.calls) ∧
      (st.1.stopped = false → (Complete st'.1.configured st'.2.devices.calls ↔
        ¬ StopPostponed st'.2.devices.calls))) fun _ _ => True := by
  intro st
  have hend := postponed_endings P
  have hst : RunningOr Known st := afterEvents_outcome hend tolerance devices events
  constructor
  · intro now m
    rcases hst with hrunning | hover
    · apply (handle_outcome hend now m st (Or.inl hrunning)).imp
      · intro _ _ _
        trivial
      -- a running session has told no stop, and one that has stopped over a minor fault has been
      -- told to wait
      · rintro e st' ⟨-, hpassed⟩ hminor
        rcases hpassed hminor with hrunning' | ⟨hstopped, -, hpostponed⟩
        · exact iff_of_false (by simp [hrunning'.1]) hrunning'.not_postponed
        · exact iff_of_true hstopped hpostponed
    · exact (ends_handle_stopped hover.1).mpr trivial
  · intro clock
    have hstops : (run P.recorded clock).Ends st (fun _ t => t.1.stopped = true)
        fun _ t => t.1.stopped = true := run_stops clock st
    rcases hst with hrunning | hover
    · apply ((run_outcome hend clock (Or.inl hrunning)).and hstops).imp
      · rintro counts st' ⟨⟨-, hpassed⟩, hstopped⟩ hcounts
        rcases hpassed hcounts with hrunning' | ⟨-, hknown, hways⟩
        · exact absurd (hrunning'.1.symm.trans hstopped) (by decide)
        · refine ⟨hknown, fun _ => ⟨fun hcomplete hpostponed => ?_, hways.resolve_right⟩⟩
          exact hcomplete.not_refused hpostponed.refused
      · intro _ _ _
        trivial
    · apply ((run_outcome hend.coarse clock (Or.inr hover)).and hstops).imp
      · rintro counts st' ⟨⟨hknown, -⟩, hstopped⟩ -
        rcases hknown with hrunning' | ⟨-, hknown⟩
        · exact absurd (hrunning'.1.symm.trans hstopped) (by decide)
        · refine ⟨hknown, fun hrunning => ?_⟩
          exact absurd (hrunning.symm.trans hover.1) (by decide)
      · intro _ _ _
        trivial

/-- The video track is set up, and the messages `posted` wait in the mailbox. -/
def videoTrack (posted : List Message) : List (Event Simulation) :=
  [.message (.still 0) (.setFormat 0 (.video "video/avc" 64 64)), .devices id posted]

/-- Without the stop of the surface no teardown is complete. -/
theorem answers_incomplete {α : Type} {a : Step (Recorded σ) (Option α)}
    (h : a.Ends st (fun x st => x ≠ none ∧ st.2.devices.calls.count .stopSurface = 0)
      fun _ _ => False) :
    a.Ends st (fun x st => x ≠ none ∧ ¬ Complete st.1.configured st.2.devices.calls)
      fun _ _ => False :=
  h.imp (fun _ _ hst => ⟨hst.1, not_complete hst.2⟩) fun _ _ he => he

/-- A session that is shut down while its decoder is too busy to stop: `handle` answers as if the
message had been rejected, `run` as if all had gone well, and the surface is never stopped. -/
theorem postponed_passedOver :
    (handle busyStop.recorded (.still 0) .shutdown).Ends (afterEvents busyStop 0 {} (videoTrack []))
      (fun _ _ => False) (fun e st => e.isFatal = false ∧ st.1.stopped = true) ∧
    (run busyStop.recorded (.replicate 3 ⟨[.still 0], .still 0⟩)).Ends
      (afterEvents busyStop 0 {} (videoTrack [.shutdown]))
      (fun counts st => counts ≠ none ∧ ¬ Complete st.1.configured st.2.devices.calls)
      fun _ _ => False := by
  constructor
  · decide +kernel
  · generalize hst : afterEvents busyStop 0 {} (videoTrack [.shutdown]) = st
    apply answers_incomplete
    rw [← hst]
    decide +kernel

end Playout.Session
