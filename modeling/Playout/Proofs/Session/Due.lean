import Playout.Proofs.Session.Handling
import Playout.Proofs.Timer.Queue

/-!
# What a message makes due

`load` weighs the messages that are due, pushes apart. A message that is handled makes less due
than it weighed itself: an output asks for a push or a wake-up at most, a wake-up for one that
is not due yet, and a retry always waits.
-/

namespace Playout.Session

open Playout.Action

variable {σ : Type}

/-! ## The work that is due -/

/-- How much a due message counts for: more than what handling it can make due. -/
def weight : Message → Nat
  | .pushAudio => 0
  | .outputReady .. => 2
  | _ => 1

/-- The work in due messages, pushes apart. -/
def load : List Message → Nat
  | [] => 0
  | m :: due => weight m + load due

@[simp] theorem load_cons (m : Message) (due : List Message) :
    load (m :: due) = weight m + load due := rfl

/-- The work does not depend on the order in which it is due. -/
theorem load_perm {due due' : List Message} (h : due.Perm due') : load due = load due' := by
  induction h with
  | nil => rfl
  | cons m _ ih => rw [load_cons, load_cons, ih]
  | swap m n due =>
    simp only [load_cons]
    omega
  | trans _ _ ih ih' => rw [ih, ih']

/-- What is posted for later is not due now. -/
theorem dueItems_schedule_later (q : TimerQueue Message) (now : Int) {delay : Nat}
    (hdelay : 0 < delay) (m : Message) :
    (q.schedule (now + delay) m).dueItems now = q.dueItems now := by
  rw [TimerQueue.dueItems_schedule, if_neg (by omega)]

/-! ## What handling a message makes due -/

/-- No more than `bound` is due. -/
def Within (now : Int) (bound : Nat) (st : Session × World σ) : Prop :=
  load (st.1.timers.dueItems now) ≤ bound

variable {now : Int} {bound : Nat}

/-- What is posted adds its own weight at most. -/
theorem within_schedule {s : Session} {w : World σ} {delay : Nat} {m : Message}
    (h : load (s.timers.dueItems now) + weight m ≤ bound) :
    Within now bound ({ s with timers := s.timers.schedule (now + delay) m }, w) := by
  simp only [Within, TimerQueue.dueItems_schedule]
  split
  · rw [load_cons]; omega
  · omega

/-- A push weighs nothing. -/
theorem within_postPush {s : Session} {w : World σ} (wait : Option Nat)
    (h : Within now bound (s, w)) : Within now bound (postPush now wait s, w) := by
  cases wait with
  | none => exact h
  | some delay => exact within_schedule (w := w) h

/-- A wake-up weighs one. -/
theorem within_postWakeUp {s : Session} {w : World σ} (wait : Option Nat)
    (h : Within now bound (s, w)) : Within now (bound + 1) (postWakeUp now wait s, w) := by
  cases wait with
  | none => exact Nat.le_succ_of_le h
  | some delay => exact within_schedule (w := w) (Nat.succ_le_succ h)

/-- A wake-up that is not due yet weighs nothing. -/
theorem within_postWakeUp_later {s : Session} {w : World σ} {wait : Option Nat}
    (hwait : ∀ delay ∈ wait, 0 < delay) (h : Within now bound (s, w)) :
    Within now bound (postWakeUp now wait s, w) := by
  cases wait with
  | none => exact h
  | some delay =>
    simp only [postWakeUp, Within]
    rw [dueItems_schedule_later _ _ (hwait delay rfl)]
    exact h

/-- Setting a track up posts nothing. -/
theorem setFormat_within (P : Platform σ) (track : Nat) (format : MediaFormat) :
    (setFormat P track format).Keeps (Within now bound) := by
  rintro ⟨s, w⟩ h
  refine (ends_setFormat (C := fun _ => True) (F := fun _ => True) (fun _ _ => ends_true _) trivial
    trivial (fun _ _ _ _ => trivial) (fun _ _ _ => trivial) fun _ _ _ _ _ => h).imp
    (fun _ _ hr => hr) fun _ _ hr => ?_
  rw [Within, hr.2]
  exact h

/-- Teardown drops the timers. -/
theorem teardown_within (P : Platform σ) : (teardown P).Keeps (Within now bound) := by
  rintro ⟨s, w⟩ h
  cases hstopped : s.stopped with
  | true => exact (ends_teardown_stopped hstopped).mpr h
  | false =>
    have haside : Aside (Within (σ := σ) now bound) := fun _ _ _ _ _ _ _ h => h
    exact teardown_ends_aside haside hstopped (Nat.zero_le _)

/-- A wake-up asks for another one that is not due yet. -/
theorem renderVideo_within (P : Platform σ) (generation : Nat) :
    (renderVideo P (.still now) generation).Keeps (Within now bound) := by
  rintro ⟨s, w⟩ h
  refine ends_renderVideo (fun _ => h) fun p _ _ => ?_
  exact (Scheduler.renderDue_ends _ now s.scheduler (p, w)).imp
    (fun _ _ hwait => within_postWakeUp_later hwait h) fun _ _ _ => h

/-- An output asks for one push or one wake-up, which may be due at once. -/
theorem outputReady_within (P : Platform σ) (track slot : Nat) (pts : Int)
    (payload : List UInt8) (st : Session × World σ) (h : Within now bound st) :
    (outputReady P (.still now) track slot pts payload).Ends st
      (fun _ t => Within now (bound + 1) t) fun _ _ => True := by
  obtain ⟨s, w⟩ := st
  refine ends_outputReady (fun p _ _ => ?_) (fun p _ _ => ?_) (fun _ => trivial)
    fun _ _ _ => trivial
  · exact ends_of_forall (fun _ _ => within_postWakeUp _ h) fun _ _ => trivial
  · refine ends_of_forall (fun _ _ => ⟨fun _ => trivial, fun _ _ => ?_⟩) fun _ _ => trivial
    exact ends_of_forall (fun _ _ => within_postPush _ (Nat.le_succ_of_le h)) fun _ _ => trivial

/-- Pipelines post nothing. -/
theorem withPipeline_within (P : Platform σ) (track : Nat)
    (a : DecoderDevice (World σ) → Pipeline.Step (World σ) Unit) :
    (withPipeline P track a).Keeps (Within now bound) := by
  rintro ⟨s, w⟩ h
  refine ends_withPipeline track a (fun t p _ _ => ?_) (fun _ => h) fun _ _ _ => h
  exact (ends_onPipeline ..).mpr (ends_of_forall (fun _ _ => h) fun _ _ => h)

/-- Handling a due message, unless it is a push, makes less due than it was itself. -/
theorem dispatch_load (P : Platform σ) {m : Message} (hm : m ≠ .pushAudio)
    (st : Session × World σ) :
    (dispatch P (.still now) m).Ends st
      (fun _ t => load (t.1.timers.dueItems now) < load (st.1.timers.dueItems now) + weight m)
      fun _ _ => True := by
  have h : Within now (load (st.1.timers.dueItems now)) st := Nat.le_refl _
  -- all but an output make nothing more due, and they weigh one
  have kept {a : Step σ Unit} (ha : a.Keeps (Within now (load (st.1.timers.dueItems now))))
      {t : Session × World σ} (ht : Within now (load (st.1.timers.dueItems now)) t) :
      a.Ends t (fun _ u => load (u.1.timers.dueItems now) < load (st.1.timers.dueItems now) + 1)
        fun _ _ => True :=
    (ha t ht).imp (fun _ _ => Nat.lt_succ_of_le) fun _ _ _ => trivial
  cases m with
  | setFormat track format => exact kept (setFormat_within P track format) h
  | queueUnit track unit =>
    simp only [dispatch, ends_bind, ends_update]
    exact kept (withPipeline_within P track _) h
  | inputsAvailable track slots =>
    exact kept (withPipeline_within P track (Pipeline.inputsAvailable · slots)) h
  | outputReady track slot pts payload =>
    exact (outputReady_within P track slot pts payload st h).imp
      (fun _ _ => Nat.lt_succ_of_le) fun _ _ he => he
  | pushAudio => exact absurd rfl hm
  | retryDecoder track =>
    obtain ⟨s, w⟩ := st
    simp only [dispatch, ends_bind]
    refine ends_disarmRetry (fun t _ => ?_) fun _ => ?_
    · exact kept (withPipeline_within P track _) h
    · exact kept (withPipeline_within P track _) h
  | renderVideo generation => exact kept (renderVideo_within P generation) h
  | shutdown => exact kept (teardown_within P) h

/-- A retry is asked for later, so that it does not count. -/
theorem scheduleRetry_later (now : Int) (t : Track) (st : Session × World σ) :
    (scheduleRetry now t).Ends st
      (fun _ st' => st'.1.timers.dueItems now = st.1.timers.dueItems now ∧
        st'.1.pacer = st.1.pacer)
      fun _ _ => True := by
  obtain ⟨s, w⟩ := st
  refine ends_scheduleRetry (fun _ => ⟨rfl, rfl⟩) (fun _ _ _ => ⟨rfl, rfl⟩) fun _ _ _ _ => ?_
  exact ⟨dueItems_schedule_later _ _ (by decide) _, rfl⟩

/-- What is due and what waits to be written after a message is what its own work left. -/
theorem handle_ends {P : Platform σ} {m : Message} {st : Session × World σ}
    {Q : List Message → Option Pacer → Prop} (hstopped : st.1.stopped = false)
    (h : (dispatch P (.still now) m).Ends st (fun _ t => Q (t.1.timers.dueItems now) t.1.pacer)
      fun _ _ => True) :
    (handle P (.still now) m).Ends st (fun _ t => Q (t.1.timers.dueItems now) t.1.pacer)
      fun _ _ => True := by
  obtain ⟨s, w⟩ := st
  replace hstopped : s.stopped = false := hstopped
  simp only [handle, ends_bind, ends_get, ends_ite, hstopped, Bool.false_eq_true, if_false,
    ends_attempt, ends_publish, ends_pure]
  refine h.imp (fun _ t ht => ?_) fun _ t _ => ?_
  · split
    · exact ht
    -- the retries that follow are for later, and do not touch the audio
    · refine (scheduleRetry_later now .video t).imp (fun _ u hu => ?_) fun _ _ _ => trivial
      refine (scheduleRetry_later now .audio u).imp (fun _ v hv => ?_) fun _ _ _ => trivial
      show Q (v.1.timers.dueItems now) v.1.pacer
      rw [hv.1, hv.2, hu.1, hu.2]
      exact ht
  · simp

end Playout.Session
