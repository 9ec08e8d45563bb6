import Playout.Proofs.Lockstep
import Playout.Proofs.Time.Readings
import Playout.Proofs.Video.Showing
import Playout.Video.Scheduler

/-!
# Presenting video with near readings

The waits of a scheduler are differences of near readings, and never overflow. The time at which a
frame becomes late is a sum with the tolerance, which overflows for the latest frames if the
tolerance is too long. It is looked at for every frame that is presented, whether its slot can be
given back or not, so runs go on after a fault here.

What carries the proof is `NearFrames`, which every event keeps.
-/

namespace Playout.Scheduler

open Playout.Action

variable {α : Type}

/-! ## Events in words -/

namespace Event

/-- The presentation time and the clock reading of an event are near. -/
def Near : Event → Prop
  | .enqueue frame now => NearZero frame.pts ∧ NearZero now
  | .renderDue now => NearZero now
  | .releaseAll => True

/-- `perform`, in words. -/
def performChecked (give : ReturnKind → Nat → Action α Unit) : Event → CheckedStep α Unit
  | .enqueue frame now, (s, a) => do
    let (_, s) ← s.enqueueChecked frame now
    return .ok () (s, a)
  | .renderDue now, t => do
    match ← renderDueChecked (give .render) now t with
    | .ok _ t => return .ok () t
    | .error e t => return .error e t
  | .releaseAll, t => return Scheduler.releaseAll (give .release) t

end Event

/-- Where events lead to, faults or not. -/
def afterEvents (give : ReturnKind → Nat → Action α Unit) (events : List Event)
    (t : Scheduler × α) : Scheduler × α :=
  events.foldl (fun t event => (event.perform give).stateAfter t) t

/-! ## One step of a loop -/

section Steps

variable {render : Nat → Action α Unit} {s : Scheduler} {a : α} {now : Int}

theorem present_nil (n : Nat) (hqueue : s.queue = []) :
    present render now (n + 1) (s, a) = .ok () (s, a) := by
  simp only [present, get_bind_apply, hqueue]
  rfl

theorem present_cons {front : DecodedOutput} {others : List DecodedOutput} (n : Nat)
    (hqueue : s.queue = front :: others) :
    present render now (n + 1) (s, a) = if now < front.pts then .ok () (s, a) else
      match render front.slot a with
      | .ok _ a => present render now n ({ s.count front now with queue := others }, a)
      | .error e a => .error e ({ s.count front now with queue := others }, a) := by
  simp only [present, get_bind_apply, hqueue]
  split
  · rfl
  · show EStateM.bind (Action.onSecond (render front.slot)) (fun _ => present render now n)
      ({ s.count front now with queue := others }, a) = _
    unfold EStateM.bind Action.onSecond Action.focus
    dsimp only
    cases render front.slot a <;> rfl

theorem renderDue_eq : renderDue render now (s, a) =
    match present render now s.queue.length ({ s with armedFor := none }, a) with
    | .ok _ t => .ok (schedule now t.1).1 ((schedule now t.1).2, t.2)
    | .error e t => .error e t := by
  show EStateM.bind (present render now s.queue.length)
    (fun _ => Action.onFirst (Action.use (schedule now))) ({ s with armedFor := none }, a) = _
  unfold EStateM.bind
  cases present render now s.queue.length ({ s with armedFor := none }, a) <;> rfl

end Steps

/-! ## Frames with near times -/

/-- The times of the frames that wait are near, and the tolerance is what it was set to. -/
structure NearFrames (tolerance : Int) (s : Scheduler) : Prop where
  frames : ∀ f ∈ s.queue, NearZero f.pts
  constant : s.tolerance = tolerance

section Exact

variable {give : ReturnKind → Nat → Action α Unit} {render : Nat → Action α Unit}
  {tolerance : Int} {s : Scheduler} {a : α} {t : Scheduler × α} {now : Int}

namespace NearFrames

theorem enqueue (h : NearFrames tolerance s) {o : DecodedOutput} (ho : NearZero o.pts) :
    NearFrames tolerance { s with queue := place o s.queue } where
  frames f hf := by
    rcases mem_place.mp hf with rfl | hf
    · exact ho
    · exact h.frames f hf
  constant := h.constant

/-- What the scheduler is armed for does not matter. -/
theorem arm (h : NearFrames tolerance s) (armedFor : Option Int) :
    NearFrames tolerance { s with armedFor } :=
  ⟨h.frames, h.constant⟩

theorem front (h : NearFrames tolerance s) {front : DecodedOutput} {others : List DecodedOutput}
    (hqueue : s.queue = front :: others) : NearZero front.pts :=
  h.frames front (hqueue ▸ List.mem_cons_self)

theorem drop (h : NearFrames tolerance s) {front : DecodedOutput} {others : List DecodedOutput}
    (hqueue : s.queue = front :: others) : NearFrames tolerance { s with queue := others } where
  frames f hf := h.frames f (hqueue ▸ List.mem_cons_of_mem front hf)
  constant := h.constant

/-- The counters do not matter either. -/
theorem rest (h : NearFrames tolerance s) {front : DecodedOutput} {others : List DecodedOutput}
    (hqueue : s.queue = front :: others) (now : Int) :
    NearFrames tolerance { s.count front now with queue := others } :=
  ⟨(h.drop hqueue).frames, h.constant⟩

/-- Presenting keeps the times near, whatever the world answers. -/
theorem present (h : NearFrames tolerance s) (n : Nat) :
    (present render now n).Ends (s, a) (fun _ t => NearFrames tolerance t.1)
      fun _ t => NearFrames tolerance t.1 := by
  refine present_each (J := fun t => NearFrames tolerance t.1)
    (E := fun _ t => NearFrames tolerance t.1) ?_ n h
  intro r b front others hqueue _ hr
  exact ends_of_forall (fun _ _ => hr.rest hqueue now) fun _ _ => hr.rest hqueue now

/-- Every event keeps the times near. -/
theorem perform {event : Event} (hnear : event.Near) :
    (event.perform give).Keeps fun t => NearFrames tolerance t.1 := by
  rintro ⟨s, a⟩ h
  cases event with
  | enqueue frame now =>
    have hqueue := h.enqueue hnear.1
    show NearFrames tolerance (s.enqueue frame now).2
    rw [enqueue_eq]
    exact hqueue.arm _
  | renderDue now => -- a frame is taken from the queue whether or not its slot can be given back
    simp only [Event.perform, ends_bind, ends_pure]
    refine renderDue_each (J := fun t => NearFrames tolerance t.1)
      (E := fun _ t => NearFrames tolerance t.1) ?_ (fun _ _ armedFor h => h.arm armedFor) h
    intro r b front others hqueue _ hr
    exact ends_of_forall (fun _ _ => hr.rest hqueue now) fun _ _ => hr.rest hqueue now
  | releaseAll =>
    simp only [Event.perform, Scheduler.releaseAll, ends_bind, ends_update, ends_get]
    refine (releaseQueue_each (J := fun t => NearFrames tolerance t.1)
      (E := fun _ t => NearFrames tolerance t.1) ?_ _ (Nat.le_refl _) (h.arm none)).imp
      (fun _ _ ht => ht.2) fun _ _ ht => ht
    intro r b front others hqueue hr
    exact ends_of_forall (fun _ _ => hr.drop hqueue) fun _ _ => hr.drop hqueue

theorem afterEvents {events : List Event} (hnear : ∀ e ∈ events, e.Near)
    (h : NearFrames tolerance t.1) : NearFrames tolerance (afterEvents give events t).1 := by
  induction events generalizing t with
  | nil => exact h
  | cons event events ih =>
    obtain ⟨hevent, hevents⟩ := List.forall_mem_cons.mp hnear
    have hkeeps : (event.perform give).Keeps fun t => NearFrames tolerance t.1 := perform hevent
    exact ih hevents (hkeeps t h).stateAfter

end NearFrames

/-! ## Nothing overflows -/

theorem scheduleChecked_eq (h : NearFrames tolerance s) (hnow : NearZero now) :
    scheduleChecked now s = .ok (schedule now s) := by
  unfold scheduleChecked schedule
  cases harmed : s.armedFor with
  | some deadline => rfl
  | none =>
    cases hqueue : s.queue with
    | nil => rfl
    | cons front others =>
      simp only [Checked.difference_of_near (h.front hqueue) hnow]
      rfl

/-- No wait overflows when a frame comes. -/
theorem enqueueChecked_eq (h : NearFrames tolerance s) {o : DecodedOutput} (ho : NearZero o.pts)
    (hnow : NearZero now) : s.enqueueChecked o now = .ok (s.enqueue o now) := by
  unfold enqueueChecked Scheduler.enqueue
  dsimp only
  split
  · rfl
  · exact scheduleChecked_eq ((h.enqueue ho).arm none) hnow

theorem countChecked_eq {f : DecodedOutput} (h : Readable (f.pts + s.tolerance)) :
    s.countChecked f now = .ok (s.count f now) := by
  unfold countChecked
  rw [Checked.sum_eq, if_pos h]
  rfl

/-- It does if no clock can show when a frame becomes late. -/
theorem countChecked_of_overflow {f : DecodedOutput} (h : ¬ Readable (f.pts + s.tolerance)) :
    s.countChecked f now = .error .sum := by
  unfold countChecked
  rw [Checked.sum_eq, if_neg h]
  rfl

section Room

variable (hpositive : 0 ≤ tolerance) (hroom : tolerance ≤ longestSpan)

include hpositive hroom

/-- No sum overflows for any of the frames, by induction on the fuel. -/
theorem presentChecked_eq (h : NearFrames tolerance s) (n : Nat) :
    presentChecked render now n (s, a) = .ok (present render now n (s, a)) := by
  -- each frame that is counted leaves the others, which are near as well
  induction n generalizing s a with
  | zero => rfl
  | succ n ih =>
    unfold presentChecked
    cases hqueue : s.queue with
    | nil =>
      rw [present_nil n hqueue]
      rfl
    | cons front others =>
      have hlimit : Readable (front.pts + s.tolerance) :=
        h.constant ▸ (h.front hqueue).readable_sum hpositive hroom
      rw [present_cons n hqueue]
      dsimp only
      split
      · rfl
      · rw [countChecked_eq hlimit]
        show (match render front.slot a with | .ok _ a => _ | .error e a => _) = _
        cases render front.slot a with
        | ok _ a' => exact ih (h.rest hqueue now)
        | error e a' => rfl

/-- Nor does the wait that is asked for after presenting. -/
theorem renderDueChecked_eq (h : NearFrames tolerance s) (hnow : NearZero now) :
    renderDueChecked render now (s, a) = .ok (renderDue render now (s, a)) := by
  have hdisarmed := h.arm none
  have hends : (present render now s.queue.length).Ends ({ s with armedFor := none }, a)
      (fun _ t => NearFrames tolerance t.1) fun _ t => NearFrames tolerance t.1 :=
    hdisarmed.present s.queue.length
  rw [renderDue_eq]
  unfold renderDueChecked
  simp only [presentChecked_eq hpositive hroom hdisarmed]
  -- the wait is computed only if every frame could be given back
  cases hpresent : present render now s.queue.length ({ s with armedFor := none }, a) with
  | ok _ t =>
    rw [ends_of_ok hpresent] at hends
    show (scheduleChecked now t.1 >>= _) = _
    rw [scheduleChecked_eq hends hnow]
    rfl
  | error e t => rfl

/-- Near events are exact where the times of the frames are near. -/
theorem performChecked_eq (h : NearFrames tolerance t.1) {event : Event} (hnear : event.Near) :
    event.performChecked give t = .ok (event.perform give t) := by
  obtain ⟨s, a⟩ := t
  have hs : NearFrames tolerance s := h
  cases event with
  | enqueue frame now =>
    show (s.enqueueChecked frame now >>= _) = _
    rw [enqueueChecked_eq hs hnear.1 hnear.2]
    rfl
  | renderDue now =>
    show (renderDueChecked (give .render) now (s, a) >>= _) = _
    rw [renderDueChecked_eq hpositive hroom hs hnear]
    -- both sides now run the same step; only the wrapping differs
    show (match renderDue (give .render) now (s, a) with | .ok _ t => _ | .error e t => _) =
      Except.ok (EStateM.bind (renderDue (give .render) now) (fun _ => pure ()) (s, a))
    unfold EStateM.bind
    cases renderDue (give .render) now (s, a) <;> rfl
  | releaseAll => rfl

/-- Whatever near events a run has, the next near event is exact. -/
theorem performChecked_run {events : List Event} (hevents : ∀ e ∈ events, e.Near) {event : Event}
    (hnear : event.Near) :
    event.performChecked give (afterEvents give events ({ tolerance }, a)) =
      .ok (event.perform give (afterEvents give events ({ tolerance }, a))) :=
  performChecked_eq hpositive hroom
    (NearFrames.afterEvents hevents ⟨fun _ hf => absurd hf List.not_mem_nil, rfl⟩) hnear

end Room

end Exact

/-- The frame with the latest of the near times. -/
def latestFrame : DecodedOutput := ⟨0, latest, []⟩

/-- Presenting the latest frame overflows if no clock can show when it becomes late. -/
theorem performChecked_latestFrame {tolerance : Int} (h : ¬ Readable (latest + tolerance)) :
    (Event.renderDue latest).performChecked (fun _ _ => pure ())
      (afterEvents (fun _ _ => pure ()) [.enqueue latestFrame latest] ({ tolerance }, ())) =
        .error .sum := by
  -- the frame is due, so it is looked at whether it is late
  have hcount : ({ tolerance, queue := [latestFrame] } : Scheduler).countChecked latestFrame
      latest = .error .sum := countChecked_of_overflow h
  have hpresent : presentChecked (fun _ => pure ()) latest 1
      ({ tolerance, queue := [latestFrame] }, ()) = .error .sum := by
    unfold presentChecked
    dsimp only
    rw [if_neg (show ¬ latest < latestFrame.pts from Int.lt_irrefl latest), hcount]
    rfl
  show ((presentChecked (fun _ => pure ()) latest 1
    ({ tolerance, queue := [latestFrame] }, ()) >>= _) >>= _) = _
  rw [hpresent]
  rfl

/-- In every run with near readings the scheduler is exact, if and only if the tolerance leaves room
for the time at which a frame becomes late. -/
theorem performChecked_run_iff {tolerance : Int} (hpositive : 0 ≤ tolerance) :
    (∀ (α : Type) (give : ReturnKind → Nat → Action α Unit) (a : α) (events : List Event)
      (event : Event), (∀ e ∈ events, e.Near) → event.Near →
        event.performChecked give (afterEvents give events ({ tolerance }, a)) =
          .ok (event.perform give (afterEvents give events ({ tolerance }, a)))) ↔
      tolerance ≤ longestSpan := by
  constructor
  · intro h
    -- a run that presents the latest frame is exact only if the tolerance leaves room
    have hlatest : (Event.enqueue latestFrame latest).Near := ⟨near_latest, near_latest⟩
    have hexact := h Unit (fun _ _ => pure ()) () [.enqueue latestFrame latest] (.renderDue latest)
      (List.forall_mem_singleton.mpr hlatest) near_latest
    apply le_longestSpan
    by_cases hreadable : Readable (latest + tolerance)
    · exact hreadable
    · rw [performChecked_latestFrame hreadable] at hexact
      cases hexact
  · intro hroom α give a events event hevents hnear
    exact performChecked_run hpositive hroom hevents hnear

end Playout.Scheduler
