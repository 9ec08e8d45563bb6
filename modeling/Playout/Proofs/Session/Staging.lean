import Playout.Proofs.Platform.Decoding
import Playout.Proofs.Platform.Ring
import Playout.Proofs.Session.Handling
import Playout.Proofs.Session.Renderers

/-!
# A session among simulated devices

With simulated devices every unit that a session accepts stays in one place until it is shown or
heard, and every slot does (`Staged`). Whatever message comes, no fault ends the session:

    dispatch_staged    what the session accepts more is what the message brings
    handle_staged      the same, with the retries that follow

A fault is one of the message, and changes nothing.
-/

namespace Playout

open Playout.Action

/-! ## One track -/

/-- Nothing has happened on a track that is not set up. -/
structure Untouched (t : Track) (accepted arrived : List AccessUnit) (held : List Nat)
    (hand : List Message) (w : World Simulation) : Prop where
  intact : w.devices.faults.failingTrack = none
  accepted : accepted = []
  arrived : arrived = []
  held : held = []
  inputs : inputsGiven t (hand ++ w.mailbox) = []
  outputs : outputsGiven t (hand ++ w.mailbox) = []
  presented : t = .video → w.devices.presented = []

/-- Every slot and every unit of a track is in one place, if the track is set up. -/
def Conserved (devices : SimulatedDevices) (t : Track) (accepted arrived : List AccessUnit)
    (held : List Nat) (hand : List Message) (part : Option Pipeline) (w : World Simulation) :
    Prop :=
  match part with
  | some p => Flows devices t accepted arrived held [] hand (p, w)
  | none => Untouched t accepted arrived held hand w

section Conserved

variable {devices : SimulatedDevices} {t : Track} {accepted arrived : List AccessUnit}
  {held : List Nat} {hand hand' : List Message} {part : Option Pipeline} {w w' : World Simulation}

/-- What has nothing to do with the track may change. -/
theorem Conserved.frame (h : Conserved devices t accepted arrived held hand part w)
    (hdecoder : w'.devices.decoders.get t = w.devices.decoders.get t)
    (hfailing : w'.devices.faults.failingTrack = w.devices.faults.failingTrack)
    (hpresented : t = .video → w'.devices.presented = w.devices.presented)
    (hinputs : inputsGiven t (hand' ++ w'.mailbox) = inputsGiven t (hand ++ w.mailbox))
    (houtputs : outputsGiven t (hand' ++ w'.mailbox) = outputsGiven t (hand ++ w.mailbox)) :
    Conserved devices t accepted arrived held hand' part w' := by
  cases part with
  | some p => exact Flows.frame h hdecoder hfailing hpresented hinputs houtputs
  | none =>
    have h : Untouched t accepted arrived held hand w := h
    exact ⟨hfailing.trans h.intact, h.accepted, h.arrived, h.held, hinputs.trans h.inputs,
      houtputs.trans h.outputs, fun ht => (hpresented ht).trans (h.presented ht)⟩

/-- Mail may come and go, and be taken in hand, as long as it brings the track the same. -/
theorem Conserved.mail (h : Conserved devices t accepted arrived held hand part w)
    (hdevices : w'.devices = w.devices)
    (hinputs : inputsGiven t (hand' ++ w'.mailbox) = inputsGiven t (hand ++ w.mailbox))
    (houtputs : outputsGiven t (hand' ++ w'.mailbox) = outputsGiven t (hand ++ w.mailbox)) :
    Conserved devices t accepted arrived held hand' part w' :=
  h.frame (by rw [hdevices]) (by rw [hdevices]) (fun _ => by rw [hdevices]) hinputs houtputs

end Conserved

/-- The messages bring something to no track but the one with this number. -/
def Concerns (hand : List Message) (track : Nat) : Prop :=
  ∀ u : Track, u.number ≠ track → inputsGiven u hand = [] ∧ outputsGiven u hand = []

namespace Message

/-- The message may wait in the mailbox of a rehearsal: it is not one that the session posts to
itself, and it does not end the session. -/
def Proper : Message → Prop
  | .setFormat .. | .queueUnit .. | .inputsAvailable .. | .outputReady .. => True
  | _ => False

/-- What the tracks have accepted when a message has been handled well. -/
def credit (accepted : PerTrack (List AccessUnit)) :
    Message → PerTrack (List AccessUnit)
  | .queueUnit track unit =>
    match Track.ofNumber? track with
    | some t => accepted.set t (accepted.get t ++ [unit])
    | none => accepted
  | _ => accepted

/-- What a decoder posts may wait in the mailbox. -/
theorem IsReport.proper {t : Track} {m : Message} (h : m.IsReport t) : m.Proper := by
  cases m <;> trivial

end Message

namespace Session

variable {devices : SimulatedDevices} {now : Readings}
  {accepted arrived : PerTrack (List AccessUnit)} {hand : List Message} {m : Message}
  {s s' : Session} {w w' : World Simulation} {t : Track} {p p' : Pipeline}

/-! ## Both tracks -/

/-- Both tracks conserve what the session accepted, and the audio that arrived is in the ring, or
waits. -/
structure Staged (devices : SimulatedDevices) (accepted arrived : PerTrack (List AccessUnit))
    (hand : List Message) (s : Session) (w : World Simulation) : Prop where
  running : s.stopped = false
  conserved : ∀ t, Conserved devices t (accepted.get t) (arrived.get t) (s.heldBy t) hand
    (s.pipelines.get t) w
  heard : (s.pacer.getD {}).KeepsUp (arrived.audio.flatMap (·.payload)) w.devices.ring
  paired : s.pacer.isSome = s.pipelines.audio.isSome
  proper : ∀ m ∈ w.mailbox, m.Proper

/-- What the operations of one track leave alone. -/
structure Rest (devices : SimulatedDevices) (accepted arrived : PerTrack (List AccessUnit))
    (s : Session) (t : Track) (w : World Simulation) : Prop where
  others : ∀ u ≠ t, Conserved devices u (accepted.get u) (arrived.get u) (s.heldBy u) []
    (s.pipelines.get u) w
  proper : ∀ m ∈ w.mailbox, m.Proper

/-- The decoder of a track keeps the rest, and the ring. -/
theorem rest_callKeeps {R : AudioRing → Prop} {c : DecoderCall} (hc : Simulation.Plays t c) :
    Pipeline.CallKeeps ((Simulation.platform devices).decoderDevice t)
      (fun w => Rest devices accepted arrived s t w ∧ R w.devices.ring) c := by
  rintro w ⟨hrest, hring⟩
  obtain ⟨hbeside, hposted⟩ : w.devices.Beside t (Simulation.decoder devices t c w.devices).2 ∧
      ∀ m ∈ (Simulation.decoder devices t c w.devices).1.2, m.IsReport t :=
    Simulation.decoder_beside hc w.devices
  -- the other track, the mailbox and the ring, in this order
  refine ⟨⟨fun u hu => ?_, fun m hm => ?_⟩, ?_⟩
  · obtain ⟨hinputs, houtputs⟩ := Message.IsReport.given_of_ne hu hposted
    refine (hrest.others u hu).frame (hbeside.decoders u hu) hbeside.failing
      (fun huv => hbeside.presented ?_) ?_ ?_
    -- only a video decoder shows a frame
    · cases t <;> simp_all
    · simp [Platform.decoderDevice, Simulation.platform, hinputs]
    · simp [Platform.decoderDevice, Simulation.platform, houtputs]
  · rcases List.mem_append.mp hm with hm | hm
    · exact hrest.proper m hm
    · exact (hposted m hm).proper
  · exact hbeside.ring.symm ▸ hring

/-- A track that is set up has its slots and units in one place each. -/
theorem Staged.flows (h : Staged devices accepted arrived hand s w)
    (hp : s.pipelines.get t = some p) :
    Flows devices t (accepted.get t) (arrived.get t) (s.heldBy t) [] hand (p, w) := by
  have hconserved := h.conserved t
  rw [hp] at hconserved
  exact hconserved

/-- On a track that is not set up nothing has happened. -/
theorem Staged.untouched (h : Staged devices accepted arrived hand s w)
    (hnone : s.pipelines.get t = none) :
    Untouched t (accepted.get t) (arrived.get t) (s.heldBy t) hand w := by
  have hconserved := h.conserved t
  rw [hnone] at hconserved
  exact hconserved

/-- Messages for one track leave the rest as it is. -/
theorem Staged.rest (h : Staged devices accepted arrived hand s w)
    (hhand : Concerns hand t.number) :
    Rest devices accepted arrived s t w := by
  refine ⟨fun u hu => ?_, h.proper⟩
  obtain ⟨hinputs, houtputs⟩ := hhand u fun heq => hu (Track.number_injective heq)
  exact (h.conserved u).mail rfl (by simp [hinputs]) (by simp [houtputs])

/-- Messages that have nothing for the tracks that are set up can be dropped. -/
theorem Staged.drop (h : Staged devices accepted arrived hand s w)
    (hhand : ∀ t, (s.pipelines.get t).isSome → inputsGiven t hand = [] ∧ outputsGiven t hand = []) :
    Staged devices accepted arrived [] s w := by
  refine ⟨h.running, fun t => ?_, h.heard, h.paired, h.proper⟩
  cases hp : s.pipelines.get t with
  | some p =>
    -- a track that is set up hears nothing from the messages
    obtain ⟨hinputs, houtputs⟩ := hhand t (by rw [hp]; rfl)
    exact (h.flows hp).frame rfl rfl (fun _ => rfl) (by simp [hinputs]) (by simp [houtputs])
  | none =>
    -- and one that is not set up has nothing coming at all
    have huntouched := h.untouched hp
    have hinputs := huntouched.inputs
    have houtputs := huntouched.outputs
    rw [inputsGiven_append, List.append_eq_nil_iff] at hinputs
    rw [outputsGiven_append, List.append_eq_nil_iff] at houtputs
    exact { huntouched with inputs := hinputs.2, outputs := houtputs.2 }

/-- A wake-up brings nothing to a track. -/
theorem Staged.take (h : Staged devices accepted arrived [] s w) (hm : m.IsWakeUp) :
    Staged devices accepted arrived [m] s w := by
  refine { h with conserved := fun t => ?_ }
  have hnothing : m.inputsFor t = [] ∧ m.outputsFor t = [] := by
    cases m <;> first | exact ⟨rfl, rfl⟩ | exact hm.elim
  exact (h.conserved t).mail rfl (by simp [hnothing]) (by simp [hnothing])

/-- So can those for a track that is not set up, or does not exist. -/
theorem Staged.drop_unset (h : Staged devices accepted arrived hand s w) {track : Nat}
    (hhand : Concerns hand track)
    (hunset : (Track.ofNumber? track).bind s.pipelines.get = none) :
    Staged devices accepted arrived [] s w := by
  refine h.drop fun t ht => hhand t ?_
  rintro rfl
  rw [Track.ofNumber?_number, Option.bind_some] at hunset
  rw [hunset] at ht
  cases ht

/-- One track goes on. -/
theorem Staged.replace (h : Staged devices accepted arrived hand s w)
    {units arrivals : List AccessUnit}
    (hset : s'.pipelines = s.pipelines.set t (some p')) (hrunning : s'.stopped = s.stopped)
    (hother : ∀ u ≠ t, s'.heldBy u = s.heldBy u)
    (hpaired : s'.pacer.isSome = s'.pipelines.audio.isSome)
    (hrest : Rest devices accepted arrived s t w')
    (hflows : Flows devices t units arrivals (s'.heldBy t) [] [] (p', w'))
    (hheard : (s'.pacer.getD {}).KeepsUp ((arrived.set t arrivals).audio.flatMap (·.payload))
      w'.devices.ring) :
    Staged devices (accepted.set t units) (arrived.set t arrivals) [] s' w' := by
  refine ⟨hrunning.trans h.running, fun u => ?_, hheard, hpaired, hrest.proper⟩
  by_cases heq : u = t
  · subst heq
    rw [hset, PerTrack.get_set_self, PerTrack.get_set_self, PerTrack.get_set_self]
    exact hflows
  · rw [hset, PerTrack.get_set_of_ne _ heq, PerTrack.get_set_of_ne _ heq,
      PerTrack.get_set_of_ne _ heq, hother u heq]
    exact hrest.others u heq

/-- The pipeline of a track goes on. -/
theorem Staged.withTrack (h : Staged devices accepted arrived hand s w)
    (hp : s.pipelines.get t = some p) {units : List AccessUnit}
    (hrest : Rest devices accepted arrived s t w')
    (hheard : (s.pacer.getD {}).KeepsUp (arrived.audio.flatMap (·.payload)) w'.devices.ring)
    (hflows : Flows devices t units (arrived.get t) (s.heldBy t) [] [] (p', w')) :
    Staged devices (accepted.set t units) arrived [] (s.withTrack t p') w' := by
  -- a track that goes on like this gets no new arrivals: what arrived is replaced by itself
  have hsame := arrived.set_get_self t
  have hheld : (s.withTrack t p').heldBy = s.heldBy := by
    funext u
    cases u <;> rfl
  have hreplaced : Staged devices (accepted.set t units) (arrived.set t (arrived.get t)) []
      (s.withTrack t p') w' :=
    h.replace rfl rfl (fun u _ => by rw [hheld])
      (h.paired.trans (PerTrack.isSome_renew hp p' .audio).symm) hrest
      (by rw [hheld]; exact hflows) (by rw [hsame]; exact hheard)
  rwa [hsame] at hreplaced

/-- The video goes on. -/
theorem Staged.withVideo (h : Staged devices accepted arrived hand s w)
    (hp : s.pipelines.get .video = some p) {units arrivals : List AccessUnit} {v : Scheduler}
    (hrest : Rest devices accepted arrived s .video w')
    (hheard : (s.pacer.getD {}).KeepsUp (arrived.audio.flatMap (·.payload)) w'.devices.ring)
    (hflows : Flows devices .video units arrivals v.slots [] [] (p', w')) :
    Staged devices (accepted.set .video units) (arrived.set .video arrivals) []
      (s.withVideo v p') w' := by
  refine h.replace rfl rfl (fun u hu => ?_)
    (h.paired.trans (PerTrack.isSome_renew hp p' .audio).symm) hrest hflows hheard
  cases u with
  | video => exact absurd rfl hu
  | audio => rfl

/-- The audio goes on. -/
theorem Staged.withAudio (h : Staged devices accepted arrived hand s w)
    {units arrivals : List AccessUnit} {pacer : Pacer}
    (hrest : Rest devices accepted arrived s .audio w')
    (hheard : pacer.KeepsUp (arrivals.flatMap (·.payload)) w'.devices.ring)
    (hflows : Flows devices .audio units arrivals pacer.slots [] [] (p', w')) :
    Staged devices (accepted.set .audio units) (arrived.set .audio arrivals) []
      (s.withAudio pacer p') w' := by
  refine h.replace rfl rfl (fun u hu => ?_) rfl hrest hflows hheard
  cases u with
  | video => rfl
  | audio => exact absurd rfl hu

/-- What neither the renderers nor the pipelines know does not matter. -/
theorem Staged.reframe (h : Staged devices accepted arrived hand s w)
    (hpipelines : s'.pipelines = s.pipelines) (hscheduler : s'.scheduler = s.scheduler)
    (hpacer : s'.pacer = s.pacer) (hstopped : s'.stopped = s.stopped) :
    Staged devices accepted arrived hand s' w := by
  -- what is held by a renderer depends on the renderers alone
  have hheld : s'.heldBy = s.heldBy := by
    funext t
    cases t <;> simp [heldBy, hscheduler, hpacer]
  refine ⟨hstopped.trans h.running, fun t => ?_, ?_, ?_, h.proper⟩
  · rw [hpipelines, hheld]
    exact h.conserved t
  · rw [hpacer]
    exact h.heard
  · rw [hpacer, hpipelines]
    exact h.paired

/-! ## Messages -/

section Messages

/-- What one track does with its pipeline is its own affair. -/
theorem withPipeline_staged (h : Staged devices accepted arrived hand s w) {track : Nat}
    (hhand : Concerns hand track) (units : List AccessUnit)
    {a : DecoderDevice (World Simulation) → Pipeline.Step (World Simulation) Unit}
    (own : ∀ t p units' arrivals held, track = t.number →
      Flows devices t units' arrivals held [] hand (p, w) →
      (a ((Simulation.platform devices).decoderDevice t)).Ends (p, w)
        (fun _ r => Flows devices t (units' ++ units) arrivals held [] [] r) fun _ _ => False)
    (calls : ∀ (t : Track) (p : Pipeline), (∀ entry ∈ p.deferred, entry.2 = t.returnKind) →
      ∀ K : World Simulation → Prop,
      (∀ c, Simulation.Plays t c →
        Pipeline.CallKeeps ((Simulation.platform devices).decoderDevice t) K c) → K w →
      (a ((Simulation.platform devices).decoderDevice t)).Ends (p, w) (fun _ r => K r.2)
        fun _ r => K r.2) :
    (withPipeline (Simulation.platform devices) track a).Ends (s, w)
      (fun _ r => ∃ t, Track.ofNumber? track = some t ∧
        Staged devices (accepted.set t (accepted.get t ++ units)) arrived [] r.1 r.2)
      fun e r => e.isFatal = false ∧ Staged devices accepted arrived [] r.1 r.2 := by
  refine ends_withPipeline track a (fun t p ht hp => ?_)
    (fun hnone => ⟨rfl, h.drop_unset hhand (by simp [hnone])⟩)
    fun t ht hnone => ⟨rfl, h.drop_unset hhand (by simp [ht, hnone])⟩
  -- `own` keeps the flows of the track, and `calls` keeps what lies outside of it
  obtain rfl := Track.eq_number_of_ofNumber? ht
  have hflows := h.flows hp
  rw [ends_onPipeline]
  refine ((own t p _ _ _ rfl hflows).and (calls t p hflows.kinds _ (fun c hc =>
    rest_callKeeps hc) ⟨h.rest hhand, h.heard⟩)).imp (fun _ r hr => ?_) fun _ _ he => he.1.elim
  exact ⟨t, ht, h.withTrack hp hr.2.1 hr.2.2 hr.1⟩

/-- A unit that a session accepts is in one place from then on. -/
theorem submit_staged (h : Staged devices accepted arrived [] s w) (track : Nat)
    (unit : AccessUnit) :
    (withPipeline (Simulation.platform devices) track (Pipeline.submit · unit)).Ends (s, w)
      (fun _ r => ∃ t, Track.ofNumber? track = some t ∧
        Staged devices (accepted.set t (accepted.get t ++ [unit])) arrived [] r.1 r.2)
      fun e r => e.isFatal = false ∧ Staged devices accepted arrived [] r.1 r.2 := by
  refine withPipeline_staged h (fun _ _ => ⟨rfl, rfl⟩) [unit]
    (fun t p _ _ _ _ hflows => Pipeline.submit_flows hflows unit) fun t p _ K hcalls hK => ?_
  exact (Pipeline.submit_spares (fun slot u => hcalls _ (.queueInput slot u)) unit).keeps _ hK

/-- Input slots that come back are used for the units that wait. -/
theorem inputsAvailable_staged {track : Nat} {slots : List Nat}
    (h : Staged devices accepted arrived [.inputsAvailable track slots] s w) :
    (withPipeline (Simulation.platform devices) track
      (Pipeline.inputsAvailable · slots)).Ends (s, w)
      (fun _ r => Staged devices accepted arrived [] r.1 r.2)
      fun e r => e.isFatal = false ∧ Staged devices accepted arrived [] r.1 r.2 := by
  -- the message is about this track, so the other one has nothing in hand
  have hconcerns : Concerns [.inputsAvailable track slots] track := fun u hu => by
    simp [Message.inputsFor, Message.outputsFor, Ne.symm hu]
  refine (withPipeline_staged h hconcerns [] (fun t p _ _ _ ht hflows => ?_)
    fun t p _ K hcalls hK => ?_).imp (fun _ r hr => ?_) fun _ _ he => he
  · subst ht
    rw [List.append_nil]
    exact Pipeline.inputsAvailable_flows hflows
  · exact (Pipeline.inputsAvailable_spares
      (fun slot u => hcalls _ (.queueInput slot u)) slots).keeps _ hK
  · obtain ⟨t, -, hr⟩ := hr
    rwa [List.append_nil, PerTrack.set_get_self] at hr

/-- A retry loses no unit and no slot, whatever is still refused. -/
theorem retry_staged (h : Staged devices accepted arrived [] s w) (track : Nat) :
    (withPipeline (Simulation.platform devices) track Pipeline.retry).Ends (s, w)
      (fun _ r => Staged devices accepted arrived [] r.1 r.2)
      fun e r => e.isFatal = false ∧ Staged devices accepted arrived [] r.1 r.2 := by
  refine (withPipeline_staged h (fun _ _ => ⟨rfl, rfl⟩) [] (fun t p _ _ _ _ hflows => ?_)
    fun t p hkinds K hcalls hK => ?_).imp (fun _ r hr => ?_) fun _ _ he => he
  · rw [List.append_nil]
    exact Pipeline.retry_flows hflows
  · refine Pipeline.retry_calls (fun slot u => hcalls _ (.queueInput slot u))
      (fun entry hentry => ?_) hK
    rw [hkinds entry hentry]
    exact hcalls _ (.returnOutput entry.1)
  · obtain ⟨t, -, hr⟩ := hr
    rwa [List.append_nil, PerTrack.set_get_self] at hr

/-- An output goes to the renderer of its track, and its unit is among those that arrived. -/
theorem outputReady_staged {track slot : Nat} {pts : Int} {payload : List UInt8}
    (h : Staged devices accepted arrived [.outputReady track slot pts payload] s w) :
    (outputReady (Simulation.platform devices) now track slot pts payload).Ends (s, w)
      (fun _ r => ∃ arrived', Staged devices accepted arrived' [] r.1 r.2)
      fun e r => e.isFatal = false ∧ Staged devices accepted arrived [] r.1 r.2 := by
  have hconcerns : Concerns [.outputReady track slot pts payload] track := fun u hu => by
    simp [Message.inputsFor, Message.outputsFor, Ne.symm hu]
  refine ends_outputReady (fun p ht hp => ?_) (fun p ht hp => ?_)
    (fun hnone => ⟨rfl, h.drop_unset hconcerns (by simp [hnone])⟩)
    fun t ht hnone => ⟨rfl, h.drop_unset hconcerns (by simp [ht, hnone])⟩
  -- a frame: the scheduler takes the slot
  · obtain rfl := Track.eq_number_of_ofNumber? ht
    refine (Pipeline.outputReady_flows (h.flows hp)).imp ?_ fun _ _ he => he.elim
    rintro output ⟨p', w'⟩ ⟨rfl, hw, hflows⟩
    obtain rfl : w' = w := hw
    have hstaged := h.withVideo hp (h.rest hconcerns) h.heard
      (hflows.perm (s.scheduler.enqueue_slots ⟨slot, pts, payload⟩ now.frames).symm)
    rw [PerTrack.set_get_self] at hstaged
    exact ⟨_, hstaged.reframe (by simp) (by simp) (by simp) (by simp)⟩
  -- a buffer of audio: the pacer was made with the pipeline, so there is one
  · obtain rfl := Track.eq_number_of_ofNumber? ht
    have hsome : s.pacer.isSome := by
      rw [h.paired]
      exact Option.isSome_iff_exists.mpr ⟨p, hp⟩
    refine (Pipeline.outputReady_flows (h.flows hp)).imp ?_ fun _ _ he => he.elim
    rintro output ⟨p', w'⟩ ⟨rfl, hw, hflows⟩
    obtain rfl : w' = w := hw
    refine ⟨fun hnone => by simp [hnone] at hsome, fun pacer hpacer => ?_⟩
    have hheard := h.heard
    rw [hpacer, Option.getD_some] at hheard
    refine (hheard.enqueue ⟨slot, pts, payload⟩).imp ?_ fun _ _ he => he.elim
    rintro wait ⟨pacer', w''⟩ ⟨hw, hslots, hqueued⟩
    obtain rfl : w'' = w' := hw
    -- the slot passes from the pipeline to the end of the queue
    have hheld : (slot :: s.heldBy .audio).Perm pacer'.slots := by
      rw [hslots, heldBy, hpacer]
      exact (List.perm_append_singleton _ _).symm
    have hstaged := h.withAudio (h.rest hconcerns) (by simpa [PerTrack.get] using hqueued)
      (hflows.perm hheld)
    rw [PerTrack.set_get_self] at hstaged
    exact ⟨_, hstaged.reframe (by simp) (by simp) (by simp) (by simp)⟩

/-- The renderer of a track returns a slot that it holds. -/
theorem giveBack_flows {units arrivals : List AccessUnit} {R : AudioRing → Prop} (t : Track) :
    Passes (giveBack (Simulation.platform devices) t t.returnKind)
      (fun held r => Flows devices t units arrivals held [] [] r ∧
        Rest devices accepted arrived s t r.2 ∧ R r.2.devices.ring)
      fun _ _ => False := by
  rintro slot held r ⟨hflows, hrest⟩
  have hkept := Pipeline.returnOutput_calls t.returnKind
    (rest_callKeeps (.returnOutput slot)) r hrest
  exact ((Pipeline.returnOutput_flows slot held r hflows).and hkept).imp (fun _ _ hr => hr)
    fun _ _ he => he.1.2.elim

/-- A frame that is shown or dropped gives its slot back, and its unit has arrived already. -/
theorem renderVideo_staged (h : Staged devices accepted arrived [] s w) (generation : Nat) :
    (renderVideo (Simulation.platform devices) now generation).Ends (s, w)
      (fun _ r => Staged devices accepted arrived [] r.1 r.2) fun _ _ => False := by
  refine ends_renderVideo (fun _ => h) fun p _ hp => ?_
  -- each slot is passed on while flows, rest and ring are kept
  refine (Scheduler.renderDue_owns (giveBack_flows .video) now.frames
    ⟨h.flows hp, h.rest fun _ _ => ⟨rfl, rfl⟩, h.heard⟩).imp (fun wait r hr => ?_)
    fun _ _ he => he.2
  have hstaged := h.withVideo hp hr.2.1 hr.2.2 hr.1
  rw [PerTrack.set_get_self, PerTrack.set_get_self] at hstaged
  exact hstaged.reframe (by simp) (by simp) (by simp) (by simp)

/-- While a push goes on every slot of the audio is in one place, and so is every byte. -/
theorem push_flows {units arrivals : List AccessUnit} {pacer : Pacer}
    (hflows : Flows devices .audio units arrivals pacer.slots [] [] (p, w))
    (hrest : Rest devices accepted arrived s .audio w)
    (hheard : pacer.KeepsUp (arrivals.flatMap (·.payload)) w.devices.ring) :
    (Pacer.push (Simulation.platform devices).audioDevice.onSecond
      (giveBack (Simulation.platform devices) .audio .release)).Ends (pacer, p, w)
      (fun _ r => Flows devices .audio units arrivals r.1.slots [] [] r.2 ∧
        Rest devices accepted arrived s .audio r.2.2 ∧
        r.1.KeepsUp (arrivals.flatMap (·.payload)) r.2.2.devices.ring)
      fun _ _ => False := by
  refine Pacer.push_carries (J := fun pacer r =>
    Flows devices .audio units arrivals pacer.slots [] [] r ∧
      Rest devices accepted arrived s .audio r.2 ∧
      pacer.KeepsUp (arrivals.flatMap (·.payload)) r.2.devices.ring) ?_ ?_ ?_
    ⟨hflows, hrest, hheard⟩
  -- to note whether a push is posted moves nothing
  · exact fun _ _ pending hj => ⟨hj.1, hj.2.1, hj.2.2.marked pending⟩
  -- it offers what is left of the front to the ring, and keeps its slot
  · rintro pacer ⟨p, w⟩ front others ⟨hflows, hrest, hheard⟩ hqueue
    refine (hheard.offer hqueue).imp ?_ fun _ _ he => he
    rintro taken ⟨pacer', p', w'⟩ ⟨ring, hw, hmoved⟩
    cases hw
    have hslots : (pacer'.takeFront taken AudioRing.frameSize front others).slots =
        pacer.slots := by
      simp [Pacer.slots, Pacer.takeFront, hqueue]
    refine ⟨?_, ⟨fun u hu => ?_, hrest.proper⟩, hmoved⟩
    · show Flows devices .audio units arrivals
        (pacer'.takeFront taken AudioRing.frameSize front others).slots [] [] _
      rw [hslots]
      exact hflows.frame rfl rfl (fun _ => rfl) rfl rfl
    · exact (hrest.others u hu).frame rfl rfl (fun _ => rfl) rfl rfl
  -- nothing is left of the front: its slot goes back
  · rintro pacer ⟨p, w⟩ front others ⟨hflows, hrest, hheard⟩ hqueue hnone
    have hfront : pacer.slots = front.slot :: others.map (·.slot) := by
      simp [Pacer.slots, hqueue]
    rw [hfront] at hflows
    exact (giveBack_flows .audio front.slot _ _ ⟨hflows, hrest, hheard.pop hqueue hnone⟩).imp
      (fun _ _ hr => hr) fun _ _ he => he.2

/-- A push moves bytes from the queue to the ring, and gives back the slots that are empty. -/
theorem pushAudio_staged (h : Staged devices accepted arrived [] s w) :
    (pushAudio (Simulation.platform devices) now).Ends (s, w)
      (fun _ r => Staged devices accepted arrived [] r.1 r.2) fun _ _ => False := by
  refine ends_pushAudio (fun _ => h) fun pacer p hpacer hp => ?_
  have hheard := h.heard
  have hflows := h.flows hp
  -- the audio is set up, so what is heard and what is held are those of its pacer
  rw [hpacer, Option.getD_some] at hheard
  rw [heldBy, hpacer, Option.map_some, Option.getD_some] at hflows
  refine (push_flows hflows (h.rest fun _ _ => ⟨rfl, rfl⟩) hheard).imp (fun wait r hr => ?_)
    fun _ _ he => he
  have hstaged := h.withAudio hr.2.1 hr.2.2 hr.1
  rw [PerTrack.set_get_self, PerTrack.set_get_self] at hstaged
  exact hstaged.reframe (by simp) (by simp) (by simp) (by simp)

/-- A new decoder starts, and nothing else changes. -/
theorem startPipeline_staged (h : Staged devices accepted arrived [] s w)
    (hnone : s.pipelines.get t = none) (format : MediaFormat) :
    (startPipeline (Simulation.platform devices) t format).Ends (s, w)
      (fun p r => r.1 = s ∧ Flows devices t [] [] [] [] [] (p, r.2) ∧
        Rest devices accepted arrived s t r.2 ∧
        (s.pacer.getD {}).KeepsUp (arrived.audio.flatMap (·.payload)) r.2.devices.ring)
      fun _ _ => False := by
  have huntouched := h.untouched hnone
  have hrest : Rest devices accepted arrived s t w := h.rest fun _ _ => ⟨rfl, rfl⟩
  obtain ⟨created, hcreate⟩ : ∃ created, (Simulation.platform devices).createDecoder t format
      w.devices = (.ok (), created) ∧ created = { w.devices with
        decoders := w.devices.decoders.set t (some (.new devices.outputs)) } := ⟨_, rfl, rfl⟩
  simp only [startPipeline, ends_bind, ends_onDevices, hcreate.1, ends_ofExcept_ok, ends_get]
  have hcreated := hcreate.2
  have hconfigure : (Pipeline.configure ((Simulation.platform devices).decoderDevice t) format
      (t = .video)).Ends ({ track := t.number }, { w with devices := created })
      (fun _ r => Flows devices t [] [] [] [] [] r) fun _ _ => False := by
    subst hcreated
    refine Pipeline.configure_flows ?_ ?_ ?_ ?_ ?_ format
    · exact huntouched.intact
    · exact PerTrack.get_set_self _ _ _
    · exact huntouched.presented
    · exact huntouched.inputs
    · exact huntouched.outputs
  have hkept : (Pipeline.configure ((Simulation.platform devices).decoderDevice t) format
      (t = .video)).Keeps fun r => Rest devices accepted arrived s t r.2 ∧
        (s.pacer.getD {}).KeepsUp (arrived.audio.flatMap (·.payload)) r.2.devices.ring :=
    Pipeline.configure_calls (rest_callKeeps (.configure format _)) (rest_callKeeps .start)
  -- configuring the pipeline starts its flows, and its calls keep what lies outside of it
  have hrun := hconfigure.and (hkept ({ track := t.number }, { w with devices := created }) ?_)
  · -- the pipeline is not yet a part of the session, so no lemma on parts applies to its run
    unfold Ends at hrun
    split at hrun
    · next heq =>
      rw [heq]
      exact ⟨rfl, hrun.1, hrun.2⟩
    · exact hrun.1.elim
  · subst hcreated
    refine ⟨⟨fun u hu => ?_, hrest.proper⟩, h.heard⟩
    exact (hrest.others u hu).frame (w.devices.decoders.get_set_of_ne hu _) rfl (fun _ => rfl)
      rfl rfl

/-- A track that gets set up starts with nothing accepted and nothing held. -/
theorem setFormat_staged (h : Staged devices accepted arrived [] s w) (track : Nat)
    (format : MediaFormat) :
    (setFormat (Simulation.platform devices) track format).Ends (s, w)
      (fun _ r => Staged devices accepted arrived [] r.1 r.2)
      fun e r => e.isFatal = false ∧ Staged devices accepted arrived [] r.1 r.2 := by
  simp only [setFormat, ends_bind]
  refine ends_trackOf track (fun t _ => ?_) fun _ => ⟨rfl, h⟩
  simp only [ends_get, ends_ite, ends_bind, ends_throw]
  split
  · exact ⟨rfl, h⟩
  next hunset =>
  have hnone : s.pipelines.get t = none := by simpa using hunset
  have huntouched := h.untouched hnone
  refine (startPipeline_staged h hnone format).imp ?_ fun _ _ he => he.elim
  rintro p ⟨s', w'⟩ ⟨hs, hflows, hrest, hheard⟩
  obtain rfl : s' = s := hs
  -- nothing was accepted and nothing had arrived on a track that was not set up
  have haccepted : accepted.set t [] = accepted := by
    rw [← huntouched.accepted, PerTrack.set_get_self]
  have harrived : arrived.set t [] = arrived := by
    rw [← huntouched.arrived, PerTrack.set_get_self]
  cases t with
  | video =>
    have hstaged : Staged devices (accepted.set .video []) (arrived.set .video []) []
        { s' with pipelines := s'.pipelines.set .video (some p) } w' := by
      refine h.replace rfl rfl (fun u _ => by cases u <;> rfl) h.paired hrest ?_ hheard
      show Flows devices .video [] [] (s'.heldBy .video) [] [] (p, w')
      rw [huntouched.held]
      exact hflows
    rw [haccepted, harrived] at hstaged
    exact hstaged
  | audio =>
    -- without a pipeline there was no pacer, so no bytes wait for the ring
    have hpacer : s'.pacer = none := by
      have hpaired := h.paired
      rw [show s'.pipelines.audio = none from hnone] at hpaired
      simpa using hpaired
    have hstaged : Staged devices (accepted.set .audio []) (arrived.set .audio []) []
        (s'.withAudio {} p) w' := by
      refine h.withAudio hrest ?_ hflows
      rw [hpacer, show arrived.audio = [] from huntouched.arrived] at hheard
      exact hheard
    rw [haccepted, harrived] at hstaged
    exact hstaged

end Messages

/-! ## Any message -/

/-- Every unit that was accepted is in one place, and no message is in hand. -/
def OnStage (devices : SimulatedDevices) (accepted : PerTrack (List AccessUnit))
    (st : Session × World Simulation) : Prop :=
  ∃ arrived, Staged devices accepted arrived [] st.1 st.2

/-- **One message.** Done with good devices, it adds to what was accepted just the unit that it
brings; otherwise it fails with a fault that is not fatal, and adds nothing. -/
theorem dispatch_staged (h : Staged devices accepted arrived [m] s w)
    (hm : m.Proper ∨ m.IsWakeUp) :
    (dispatch (Simulation.platform devices) now m).Ends (s, w)
      (fun _ r => OnStage devices (m.credit accepted) r)
      fun e r => e.isFatal = false ∧ OnStage devices accepted r := by
  -- of all messages only a unit is credited, and only an output changes what has arrived
  have hstage {a : Step Simulation Unit} (ha : a.Ends (s, w)
      (fun _ r => Staged devices accepted arrived [] r.1 r.2)
      fun e r => e.isFatal = false ∧ Staged devices accepted arrived [] r.1 r.2) :
      a.Ends (s, w) (fun _ r => OnStage devices accepted r)
        fun e r => e.isFatal = false ∧ OnStage devices accepted r :=
    ha.imp (fun _ _ hr => ⟨arrived, hr⟩) fun _ _ hr => ⟨hr.1, arrived, hr.2⟩
  cases m with
  | setFormat track format =>
    exact hstage (setFormat_staged (h.drop fun _ _ => ⟨rfl, rfl⟩) track format)
  | queueUnit track unit =>
    have hcounted : Staged devices accepted arrived []
        { s with accessUnits := s.accessUnits + 1 } w :=
      (h.drop fun _ _ => ⟨rfl, rfl⟩).reframe rfl rfl rfl rfl
    simp only [dispatch, ends_bind, ends_update]
    refine (submit_staged hcounted track unit).imp (fun _ r hr => ?_)
      fun _ _ hr => ⟨hr.1, arrived, hr.2⟩
    obtain ⟨t, ht, hr⟩ := hr
    -- the pipeline took the unit, so its track exists
    simp only [Message.credit, ht]
    exact ⟨arrived, hr⟩
  | inputsAvailable track slots => exact hstage (inputsAvailable_staged h)
  | outputReady track slot pts payload =>
    exact (outputReady_staged h).imp (fun _ _ hr => hr) fun _ _ hr => ⟨hr.1, arrived, hr.2⟩
  | pushAudio =>
    exact hstage ((pushAudio_staged (h.drop fun _ _ => ⟨rfl, rfl⟩)).imp (fun _ _ hr => hr)
      fun _ _ he => he.elim)
  | retryDecoder track =>
    have hdropped : Staged devices accepted arrived [] s w := h.drop fun _ _ => ⟨rfl, rfl⟩
    apply hstage
    simp only [dispatch, ends_bind]
    refine ends_disarmRetry (fun t _ => ?_) fun _ => ?_
    · have hdisarmed : Staged devices accepted arrived []
          { s with retryArmed := s.retryArmed.set t false } w :=
        hdropped.reframe rfl rfl rfl rfl
      exact retry_staged hdisarmed track
    · exact retry_staged hdropped track
  | renderVideo generation =>
    exact hstage ((renderVideo_staged (h.drop fun _ _ => ⟨rfl, rfl⟩) generation).imp
      (fun _ _ hr => hr) fun _ _ he => he.elim)
  | shutdown => exact (hm.elim id id).elim

/-- Arming a retry clears the mark of the pipeline, which no unit and no slot depends on. -/
theorem scheduleRetry_staged (h : Staged devices accepted arrived [] s w) (time : Int)
    (t : Track) :
    (scheduleRetry time t).Ends (s, w) (fun _ r => Staged devices accepted arrived [] r.1 r.2)
      fun _ _ => False := by
  have hcleared (p : Pipeline) (hp : s.pipelines.get t = some p) :
      Staged devices accepted arrived [] (s.withTrack t { p with retryNeeded := false }) w := by
    -- no unit and no slot depends on the mark
    have hflows : Flows devices t (accepted.get t) (arrived.get t) (s.heldBy t) [] []
        ({ p with retryNeeded := false }, w) :=
      (h.flows hp).imp
        (fun _ hslots => { hslots with exact := hslots.exact.congr rfl rfl rfl rfl rfl })
        fun _ hunits => hunits.congr_pipeline rfl
    have hstaged := h.withTrack hp (h.rest fun _ _ => ⟨rfl, rfl⟩) h.heard hflows
    rwa [PerTrack.set_get_self] at hstaged
  refine ends_scheduleRetry (fun _ => h) (fun p hp _ => hcleared p hp) fun p hp _ _ => ?_
  exact (hcleared p hp).reframe rfl rfl rfl rfl

/-- The retries and the counts that follow a message change nothing on the stage. -/
theorem onStage_settles : Settles now (OnStage devices accepted) where
  retries t _ h := by
    obtain ⟨arrived, h⟩ := h
    exact (scheduleRetry_staged h _ t).imp (fun _ _ hr => ⟨arrived, hr⟩) fun _ _ he => he
  publish _ _ h := by
    obtain ⟨arrived, h⟩ := h
    exact ⟨arrived, h.reframe rfl rfl rfl rfl⟩

/-- **Handling a message.** The retries that follow keep the stage, so handling does what
dispatching does, and no fault is fatal. -/
theorem handle_staged (h : Staged devices accepted arrived [m] s w) (hm : m.Proper ∨ m.IsWakeUp) :
    (handle (Simulation.platform devices) now m).Ends (s, w)
      (fun _ r => OnStage devices (m.credit accepted) r)
      fun e r => e.isFatal = false ∧ OnStage devices accepted r :=
  ends_handle_minor h.running (dispatch_staged h hm) onStage_settles fun _ => onStage_settles

end Session

end Playout
