import Playout.Proofs.Session.Slots
import Playout.Proofs.Session.Staging
import Playout.Proofs.Session.WakeUps

/-!
# A rehearsal

A session is tried out with simulated devices: tracks are set up and units queued, mail and timers
are handled while time passes, the listener listens. `rehearse` does so from a list of cues, and
notes what was accepted and which faults there were.

    perform_sound            a cue keeps every accepted unit in one place, and ends no session
    rehearse_delivers_all    when nothing is left to be done, every unit has been delivered

For the second the wake-ups are needed: without one under way nothing waits for a renderer or for a
decoder.
-/

namespace Playout

open Playout.Action

namespace Session

variable {devices : SimulatedDevices} {now : Readings} {accepted : PerTrack (List AccessUnit)}
  {m : Message} {s : Session} {w : World Simulation} {t : Track} {p : Pipeline}

/-! ## When nothing is left to be done -/

/-- Without a timer no renderer holds anything. -/
theorem Ready.heldBy_eq_nil (h : Ready s) (hquiet : s.timers.entries = []) (t : Track) :
    s.heldBy t = [] := by
  have hitems : s.timers.items = [] := by rw [TimerQueue.items, hquiet]; rfl
  cases t with
  | video => -- a frame that waits has its wake-up under way, and there is none
    have honce := h.video.once
    rw [hitems] at honce
    have hqueue : s.scheduler.queue = [] := by
      by_contra hne
      rw [if_neg hne] at honce
      cases honce
    rw [heldBy, Scheduler.slots, hqueue, List.map_nil]
  | audio =>
    cases hpacer : s.pacer with
    | none => rw [heldBy, hpacer, Option.map_none, Option.getD_none]
    | some pacer =>
      have honce := h.audio.once
      rw [hitems, hpacer, Option.elim_some] at honce
      -- audio that waits has been asked for by a push, and none is under way
      have hqueue : pacer.queue = [] := by
        by_contra hne
        rw [h.audio.asking pacer hpacer hne] at honce
        cases honce
      rw [heldBy, hpacer, Option.map_some, Option.getD_some, Pacer.slots, hqueue, List.map_nil]

/-- Without a timer no pipeline waits for its decoder to have time. -/
theorem Ready.not_waiting (h : Ready s) (hunmarked : Unmarked t s)
    (hquiet : s.timers.entries = []) (hp : s.pipelines.get t = some p) :
    p.deferred = [] ∧ (p.freeInputs = [] ∨ p.pendingUnits = []) := by
  have hitems : s.timers.items = [] := by rw [TimerQueue.items, hquiet]; rfl
  -- no retry is asked for, and none under way, so nothing waits for one
  have hunknown : ¬ (p.retryNeeded = true ∨ s.retryArmed.get t = true) := by
    have honce := h.retry.once t
    rw [hitems] at honce
    rintro (hmark | harmed)
    · rw [hunmarked p hp] at hmark
      cases hmark
    · rw [harmed] at honce
      cases honce
  have hheeded := h.retry.heeded t p hp
  refine ⟨?_, ?_⟩
  · by_contra hne
    exact hunknown (hheeded.returns hne)
  · by_contra hne
    obtain ⟨hfree, hunits⟩ := not_or.mp hne
    exact hunknown (hheeded.inputs hfree hunits)

/-- What holds all along: every accepted unit is in one place, every slot has one owner, and every
wake-up that is needed is under way. -/
structure Rehearsed (devices : SimulatedDevices) (accepted : PerTrack (List AccessUnit))
    (st : Session × World Simulation) : Prop where
  onStage : OnStage devices accepted st
  tidy : Tidy st
  atRest : AtRest st

/-- A rehearsal never stops the session. -/
theorem Rehearsed.running {st : Session × World Simulation} (h : Rehearsed devices accepted st) :
    st.1.stopped = false := by
  obtain ⟨_, hstaged⟩ := h.onStage
  exact hstaged.running

/-- When the mailbox and the timers are empty everything that was accepted has arrived. -/
theorem Rehearsed.delivered (h : Rehearsed devices accepted (s, w))
    (hinputs : 0 < devices.inputs) (houtputs : 0 < devices.outputs) (hmail : w.mailbox = [])
    (hquiet : s.timers.entries = []) :
    w.devices.presented.Perm accepted.video ∧
      w.devices.ring.written = accepted.audio.flatMap (·.payload) := by
  obtain ⟨arrived, hstaged⟩ := h.onStage
  have hrunning : s.stopped = false := h.running
  obtain ⟨hready, hunmarked⟩ := h.atRest.resolve_left fun heq => by simp [hrunning] at heq
  have hdelivered (t : Track) : arrived.get t = accepted.get t ∧
      (t = .video → w.devices.presented.Perm (accepted.get t)) := by
    cases hp : s.pipelines.get t with
    | none => -- a track that is not set up has accepted nothing
      have huntouched := hstaged.untouched hp
      rw [huntouched.arrived, huntouched.accepted]
      exact ⟨rfl, fun ht => by rw [huntouched.presented ht]⟩
    | some p =>
      have hflows := hstaged.flows hp
      rw [hready.heldBy_eq_nil hquiet t] at hflows
      obtain ⟨hdeferred, hidle⟩ := hready.not_waiting (hunmarked t) hquiet hp
      exact hflows.delivered hinputs houtputs hmail hdeferred hidle
  refine ⟨(hdelivered .video).2 rfl, ?_⟩
  have hheard := hstaged.heard.bytes
  -- the audio renderer holds no buffer, so all that arrived has been written
  have hwaiting : (s.pacer.getD {}).waiting = [] := by
    have hheld := hready.heldBy_eq_nil hquiet .audio
    cases hpacer : s.pacer with
    | none => rfl
    | some pacer =>
      rw [heldBy, hpacer, Option.map_some, Option.getD_some, Pacer.slots, List.map_eq_nil_iff]
        at hheld
      rw [Option.getD_some, Pacer.waiting, hheld, List.flatMap_nil]
  rw [hwaiting, List.append_nil] at hheard
  rw [hheard]
  exact congrArg _ (hdelivered .audio).1

/-! ## Messages -/

/-- A message in hand is handled. -/
theorem handle_rehearsed {arrived : PerTrack (List AccessUnit)} {st : Session × World Simulation}
    (hstaged : Staged devices accepted arrived [m] st.1 st.2) (hm : m.Proper ∨ m.IsWakeUp)
    (htidy : Tidy st)
    (hexpecting : st.1.stopped = true ∨ Expecting (m :: st.1.timers.items) st.1) :
    (handle (Simulation.platform devices) now m).Ends st
      (fun _ r => Rehearsed devices (m.credit accepted) r)
      fun e r => e.isFatal = false ∧ Rehearsed devices accepted r :=
  ((handle_staged hstaged hm).and ((handle_tidy htidy m).and (handle_atRest hexpecting))).imp
    (fun _ _ hr => ⟨hr.1, hr.2.1, hr.2.2⟩) fun _ _ hr => ⟨hr.1.1, hr.1.2, hr.2.1.2, hr.2.2⟩

/-- A letter that concerns no slot may be posted. -/
theorem Rehearsed.post (h : Rehearsed devices accepted (s, w)) (hm : m.Proper)
    (hnone : ∀ t, m.inputsFor t = [] ∧ m.outputsFor t = []) :
    Rehearsed devices accepted (s, w.post m) := by
  obtain ⟨arrived, hstaged⟩ := h.onStage
  refine ⟨⟨arrived, { hstaged with conserved := fun t => ?_, proper := fun m' hm' => ?_ }⟩, h.tidy,
    h.atRest⟩
  · exact (hstaged.conserved t).mail rfl (by simp [World.post, hnone t])
      (by simp [World.post, hnone t])
  · rcases List.mem_append.mp hm' with hold | hnew
    · exact hstaged.proper m' hold
    · rwa [List.mem_singleton.mp hnew]

/-- The listener has no part in it. -/
theorem Rehearsed.listen (h : Rehearsed devices accepted (s, w)) (frames : UInt32) :
    Rehearsed devices accepted
      (s, { w with devices := { w.devices with ring := w.devices.ring.play frames } }) := by
  obtain ⟨arrived, hstaged⟩ := h.onStage
  refine ⟨⟨arrived, { hstaged with
    conserved := fun t => ?_
    heard := hstaged.heard.play frames }⟩, h.tidy, h.atRest⟩
  exact (hstaged.conserved t).frame rfl rfl (fun _ => rfl) rfl rfl

/-- The first message of the mailbox is handled. -/
theorem Rehearsed.mail {rest : List Message} (h : Rehearsed devices accepted (s, w))
    (hmail : w.mailbox = m :: rest) :
    (handle (Simulation.platform devices) now m).Ends (s, { w with mailbox := rest })
      (fun _ r => Rehearsed devices (m.credit accepted) r)
      fun e r => e.isFatal = false ∧ Rehearsed devices accepted r := by
  obtain ⟨arrived, hstaged⟩ := h.onStage
  have hproper : m.Proper := hstaged.proper m (hmail ▸ List.mem_cons_self)
  -- the mailbox holds no wake-ups, so the message is not one that the session waits for
  have hmessage : ¬ m.IsWakeUp := by cases m <;> first | exact id | exact hproper.elim
  have htaken : Staged devices accepted arrived [m] s { w with mailbox := rest } := by
    refine { hstaged with conserved := fun t => ?_, proper := fun m' hm' => ?_ }
    · exact (hstaged.conserved t).mail rfl (by simp [hmail]) (by simp [hmail])
    · exact hstaged.proper m' (hmail ▸ List.mem_cons_of_mem _ hm')
  have htidy : Tidy (s, { w with mailbox := rest }) := h.tidy
  have hexpecting : s.stopped = true ∨ Expecting (m :: s.timers.items) s :=
    h.atRest.imp id fun hready => hready.1.keep hmessage
  exact handle_rehearsed htaken (Or.inl hproper) htidy hexpecting

/-- The timers bring wake-ups alone, and these accept nothing. -/
theorem Rehearsed.timers (h : Rehearsed devices accepted (s, w)) (clock : List Readings) :
    (fireDue (Simulation.platform devices) clock).Ends (s, w)
      (fun _ r => Rehearsed devices accepted r)
      fun e r => e.isFatal = false ∧ Rehearsed devices accepted r := by
  refine handleAll_ends (J := fun m r => (∃ arrived, Staged devices accepted arrived [m] r.1 r.2) ∧
    m.IsWakeUp ∧ Tidy r ∧ (r.1.stopped = true ∨ Expecting (m :: r.1.timers.items) r.1)) ?_ ?_
    clock (s, w) h
  · rintro now ⟨s, w⟩ h
    have hrunning : s.stopped = false := h.running
    obtain ⟨arrived, hstaged⟩ := h.onStage
    have hstage : (takeDue now.timers).Ends (s, w)
        (fun _ r => Staged devices accepted arrived [] r.1 r.2) fun _ _ => False := by
      rw [ends_takeDue]
      split
      · exact hstaged
      · exact hstaged.reframe rfl rfl rfl rfl
    refine (hstage.and ((takeDue_tidy (s, w) h.tidy).and (takeDue_atRest (s, w) h.atRest))).imp
      (fun next r hr => ⟨fun hnone => ⟨⟨arrived, hr.1⟩, hr.2.1.1 hnone, hr.2.2.1 hnone⟩,
        fun m hm => ?_⟩) fun _ _ he => he.1.elim
    obtain ⟨htidy, hwakes⟩ := hr.2.1.2 m hm
    have hwakeUp : m.IsWakeUp := hwakes.resolve_left fun heq => by
      rw [hr.1.running] at heq
      cases heq
    refine ⟨⟨arrived, ?_⟩, hwakeUp, htidy, hr.2.2.2 m hm⟩
    exact hr.1.take hwakeUp
  · rintro now m r ⟨⟨arrived, hstaged⟩, hwakeUp, htidy, hexpecting⟩
    -- a wake-up brings no unit
    have hcredit : m.credit accepted = accepted := by
      cases m <;> first | rfl | exact hwakeUp.elim
    rw [← hcredit]
    refine (handle_rehearsed hstaged (Or.inr hwakeUp) htidy hexpecting).imp (fun _ _ hr => hr)
      fun _ _ hr => ?_
    rwa [hcredit]

end Session

/-! ## Cues -/

/-- What can happen in a rehearsal. -/
inductive Cue where
  | setFormat (track : Nat) (format : MediaFormat)
  | queueUnit (track : Nat) (unit : AccessUnit)
  /-- The first message of the mailbox is handled. -/
  | mail (now : Readings)
  /-- Due timers are handled, if there are readings for so many. -/
  | timers (clock : List Readings)
  /-- The listener hears what is in the ring. -/
  | listen (frames : UInt32)

/-- A session among simulated devices, and what is noted about it. -/
structure Stage where
  session : Session
  world : World Simulation
  /-- The units that the session took without a fault -/
  accepted : PerTrack (List AccessUnit) := .both []
  /-- The faults of all messages so far -/
  faults : List Fault := []

namespace Stage

/-- A stage on which nothing has happened yet. -/
def opening (tolerance : Int) (plan : FaultPlan) : Stage where
  session := .new tolerance
  world := { devices := { faults := plan } }

/-- Run an action, and note what it accepts or its fault. -/
def run {α : Type} (st : Stage) (a : Session.Step Simulation α) (world : World Simulation)
    (accepted : PerTrack (List AccessUnit)) : Stage :=
  match a (st.session, world) with
  | .ok _ (session, world) => { st with session, world, accepted }
  | .error e (session, world) => { st with session, world, faults := st.faults ++ [e] }

end Stage

namespace Cue

def perform (devices : SimulatedDevices) : Cue → Stage → Stage
  | setFormat track format, st => { st with world := st.world.post (.setFormat track format) }
  | queueUnit track unit, st => { st with world := st.world.post (.queueUnit track unit) }
  | mail now, st =>
    match st.world.mailbox with
    | [] => st
    | m :: rest =>
      st.run (Session.handle (Simulation.platform devices) now m)
        { st.world with mailbox := rest } (m.credit st.accepted)
  | timers clock, st =>
    st.run (Session.fireDue (Simulation.platform devices) clock) st.world st.accepted
  | listen frames, st =>
    { st with world.devices.ring := st.world.devices.ring.play frames }

end Cue

/-- The stage after some cues. -/
def rehearse (devices : SimulatedDevices) (st : Stage) (cues : List Cue) : Stage :=
  cues.foldl (fun st c => c.perform devices st) st

/-- Everything goes well: what was accepted is in one place, and no fault ended the session. -/
structure Stage.Sound (devices : SimulatedDevices) (st : Stage) : Prop where
  rehearsed : Session.Rehearsed devices st.accepted (st.session, st.world)
  minor : ∀ e ∈ st.faults, e.isFatal = false

section Stage

variable {devices : SimulatedDevices} {st : Stage}

/-- An action that keeps the stage in order, and ends no session where it fails, keeps it sound. -/
theorem Stage.Sound.run {α : Type} (h : st.Sound devices) {a : Session.Step Simulation α}
    {world : World Simulation} {accepted : PerTrack (List AccessUnit)}
    (ha : a.Ends (st.session, world) (fun _ r => Session.Rehearsed devices accepted r)
      fun e r => e.isFatal = false ∧ Session.Rehearsed devices st.accepted r) :
    (st.run a world accepted).Sound devices := by
  unfold Ends at ha
  unfold Stage.run
  split at ha
  · next hrun => -- the action went well: the journal of faults is as before
    rw [hrun]
    exact ⟨ha, h.minor⟩
  · next e _ hrun => -- one more fault, which ended nothing
    rw [hrun]
    refine ⟨ha.2, fun e' he' => ?_⟩
    rcases List.mem_append.mp he' with hold | hnew
    · exact h.minor e' hold
    · rw [List.mem_singleton.mp hnew]
      exact ha.1

/-- A cue keeps every accepted unit in one place, and ends no session. -/
theorem Cue.perform_sound (c : Cue) (h : st.Sound devices) :
    (c.perform devices st).Sound devices := by
  cases c with
  | setFormat track format => exact ⟨h.rehearsed.post trivial fun _ => ⟨rfl, rfl⟩, h.minor⟩
  | queueUnit track unit => exact ⟨h.rehearsed.post trivial fun _ => ⟨rfl, rfl⟩, h.minor⟩
  | mail now =>
    simp only [perform]
    split
    · exact h
    · next hmail => exact h.run (h.rehearsed.mail hmail)
  | timers clock => exact h.run (h.rehearsed.timers clock)
  | listen frames => exact ⟨h.rehearsed.listen frames, h.minor⟩

/-- An empty stage is sound. -/
theorem Stage.opening_sound (tolerance : Int) (busyQueues deferredReturns : Nat) :
    (Stage.opening tolerance { busyQueues, deferredReturns }).Sound devices := by
  refine ⟨⟨⟨.both [], rfl, fun t => ?_, ⟨rfl, rfl, rfl⟩, rfl, nofun⟩,
    Or.inr (Session.new_matched tolerance), Or.inr (Session.new_atRest tolerance)⟩, nofun⟩
  cases t <;> exact ⟨rfl, rfl, rfl, rfl, rfl, rfl, fun _ => rfl⟩

/-- A rehearsal stays sound, by induction on its cues. -/
theorem rehearse_sound (cues : List Cue) (h : st.Sound devices) :
    (rehearse devices st cues).Sound devices := by
  induction cues generalizing st with
  | nil => exact h
  | cons c cues ih => exact ih (c.perform_sound h)

/-- **Nothing is lost in a rehearsal.** A session runs among simulated devices with at least one
input slot and one output slot, whose decoders are too busy for any number of inputs and returns.
Formats and units come in any order, also for tracks that do not exist or are not set up; mail and
timers are handled in between, whatever the clock reads meanwhile, and the listener listens. Then no
message leads to a fault that ends the session. And whenever the mailbox and the timers are empty,
the surface has shown every unit of the video that was accepted exactly once, as it came, and what
was written to the audio output are the bytes of the audio units that were accepted, in the order in
which they came. -/
theorem rehearse_delivers_all (hinputs : 0 < devices.inputs) (houtputs : 0 < devices.outputs)
    (tolerance : Int) (busyQueues deferredReturns : Nat) (cues : List Cue) :
    let st := rehearse devices (.opening tolerance { busyQueues, deferredReturns }) cues
    (∀ e ∈ st.faults, e.isFatal = false) ∧ st.session.stopped = false ∧
      (st.world.mailbox = [] → st.session.timers.entries = [] →
        st.world.devices.presented.Perm st.accepted.video ∧
        st.world.devices.ring.written = st.accepted.audio.flatMap (·.payload)) := by
  intro st
  have h : st.Sound devices :=
    rehearse_sound cues (Stage.opening_sound tolerance busyQueues deferredReturns)
  exact ⟨h.minor, h.rehearsed.running, h.rehearsed.delivered hinputs houtputs⟩

/-- Two tracks are set up, and units come for them and for one that does not exist. -/
def narrowCues : List Cue :=
  [.setFormat 0 (.video "video/avc" 64 64), .setFormat 1 (.audio "audio/raw" 48000 2),
    .mail (.still 0), .mail (.still 0), .mail (.still 0), .mail (.still 0),
    .queueUnit 0 ⟨1000, [7]⟩, .queueUnit 1 ⟨0, [1, 2, 3, 4, 5, 6, 7, 8]⟩, .queueUnit 0 ⟨500, [8]⟩,
    .queueUnit 2 ⟨0, []⟩] ++
    (List.range 10).flatMap fun n =>
      let now : Readings := .still (5000 * n)
      [.mail now, .timers (.replicate 5 now), .listen 1]

/-- One slot of each kind, and room for one frame. -/
def narrowDevices : SimulatedDevices := { inputs := 1, outputs := 1, frames := 1 }

/-- The rehearsal of these cues with decoders that are too busy for one input and one return. -/
def narrowStage : Stage :=
  rehearse narrowDevices (.opening 0 { busyQueues := 1, deferredReturns := 1 }) narrowCues

/-- All three units are delivered. -/
theorem narrowStage_delivers_all :
    narrowStage.world.mailbox = [] ∧ narrowStage.session.timers.entries = [] ∧
      narrowStage.faults = [.unknownTrack 2] ∧
      narrowStage.world.devices.presented.Perm [⟨1000, [7]⟩, ⟨500, [8]⟩] ∧
      narrowStage.world.devices.ring.written = [1, 2, 3, 4, 5, 6, 7, 8] := by
  have hmail : narrowStage.world.mailbox = [] := by decide +kernel
  have hquiet : narrowStage.session.timers.entries = [] := by decide +kernel
  have hfaults : narrowStage.faults = [.unknownTrack 2] := by decide +kernel
  have hvideo : narrowStage.accepted.video = [⟨1000, [7]⟩, ⟨500, [8]⟩] := by decide +kernel
  have haudio : narrowStage.accepted.audio = [⟨0, [1, 2, 3, 4, 5, 6, 7, 8]⟩] := by decide +kernel
  have hinputs : 0 < narrowDevices.inputs := by decide
  have houtputs : 0 < narrowDevices.outputs := by decide
  have hdelivers := rehearse_delivers_all hinputs houtputs 0 1 1 narrowCues
  have hstage : rehearse narrowDevices
      (.opening 0 { busyQueues := 1, deferredReturns := 1 }) narrowCues = narrowStage := rfl
  rw [hstage] at hdelivers
  -- the stage is not to be run again by what follows
  generalize narrowStage = st at *
  obtain ⟨-, -, hdelivered⟩ := hdelivers
  obtain ⟨hpresented, hwritten⟩ := hdelivered hmail hquiet
  rw [hvideo] at hpresented
  rw [haudio] at hwritten
  exact ⟨hmail, hquiet, hfaults, hpresented, hwritten⟩

end Stage

end Playout
