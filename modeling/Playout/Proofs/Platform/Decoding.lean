import Playout.Proofs.Decode.Calls
import Playout.Proofs.Platform.Flow
import Playout.Proofs.Session.Basic

/-!
# A pipeline in front of an echoing decoder

Whatever a pipeline does with the decoder of its track, every slot and every unit stays in one
place (`Flows`), and the decoder never fails: it is too busy, or it does what it is told. The rest
of the world is left alone (`Beside`).

    fillInputs_flows     units go in while slots last
    outputReady_flows    a reported output is handed to the renderer
    returnOutput_flows   a slot that is held goes back, or is deferred
    retry_flows          what was deferred is offered again
-/

namespace Playout

open Playout.Action

/-! ## What a call leaves alone -/

/-- The messages come from the decoder of a track. -/
def Message.IsReport (t : Track) : Message → Prop
  | .inputsAvailable track _ | .outputReady track .. => track = t.number
  | _ => False

theorem Message.IsReport.given_of_ne {t u : Track} (h : u ≠ t) {posted : List Message}
    (hposted : ∀ m ∈ posted, m.IsReport t) :
    inputsGiven u posted = [] ∧ outputsGiven u posted = [] := by
  have hother {m : Message} (hm : m ∈ posted) : m.inputsFor u = [] ∧ m.outputsFor u = [] := by
    have hreport := hposted m hm
    have hnumber : t.number ≠ u.number := fun heq => h (Track.number_injective heq).symm
    cases m <;> simp_all [Message.IsReport, Message.inputsFor, Message.outputsFor]
  exact ⟨List.flatMap_eq_nil_iff.mpr fun _ hm => (hother hm).1,
    List.flatMap_eq_nil_iff.mpr fun _ hm => (hother hm).2⟩

namespace Simulation

/-- What the decoder of a track leaves alone when it moves the devices from `s` to `s'`. Only a
decoder of the video presents anything. -/
structure Beside (t : Track) (s s' : Simulation) : Prop where
  decoders : ∀ u ≠ t, s'.decoders.get u = s.decoders.get u
  ring : s'.ring = s.ring
  failing : s'.faults.failingTrack = s.faults.failingTrack
  presented : t = .audio → s'.presented = s.presented

variable {devices : SimulatedDevices} {t : Track} {s : Simulation} {d : EchoDecoder}

theorem Beside.refl (t : Track) (s : Simulation) : s.Beside t s :=
  ⟨fun _ _ => rfl, rfl, rfl, fun _ => rfl⟩

/-- Handing out changes the decoder of the track alone. -/
theorem Beside.emit {s' : Simulation} (h : s.Beside t s') (d : EchoDecoder) :
    s.Beside t (s'.emit t d).2 := by
  refine ⟨fun u hu => ?_, h.ring, h.failing, h.presented⟩
  exact (s'.decoders.get_set_of_ne hu _).trans (h.decoders u hu)

theorem emit_isReport (s : Simulation) (t : Track) (d : EchoDecoder) :
    ∀ m ∈ (s.emit t d).1, m.IsReport t := by
  obtain ⟨outs, houts⟩ := EchoDecoder.emit_reports t.number d.decoded d
  intro m hm
  have hm : m ∈ outs.map (·.report t.number) := houts ▸ hm
  obtain ⟨o, -, rfl⟩ := List.mem_map.mp hm
  rfl

/-- Feeding posts reports of the decoder, and changes nothing else. -/
theorem queueInput_beside (s : Simulation) (t : Track) (d : EchoDecoder) (slot : Nat)
    (u : AccessUnit) :
    s.Beside t (s.queueInput t d slot u).2 ∧ ∀ m ∈ (s.queueInput t d slot u).1.2, m.IsReport t := by
  have htried (d : EchoDecoder) : s.Beside t { s with decoders := s.decoders.set t (some d) } :=
    ⟨fun u hu => s.decoders.get_set_of_ne hu _, rfl, rfl, fun _ => rfl⟩
  unfold queueInput
  dsimp only
  split
  -- broken, or busy, or it takes the unit and reports what it has decoded
  · exact ⟨htried _, nofun⟩
  · split
    · exact ⟨⟨(htried _).decoders, rfl, rfl, fun _ => rfl⟩, nofun⟩
    · refine ⟨(htried _).emit _, fun m hm => ?_⟩
      rcases List.mem_cons.mp hm with rfl | hm
      · rfl
      · exact emit_isReport _ t _ m hm

/-- Neither does a slot that comes back, except that a picture is presented. -/
theorem returnOutput_beside (s : Simulation) (t : Track) (d : EchoDecoder) (slot : Nat) :
    s.Beside t (s.returnOutput t d slot (t = .video)).2 ∧
      ∀ m ∈ (s.returnOutput t d slot (t = .video)).1.2, m.IsReport t := by
  unfold returnOutput
  split
  -- busy, or there is no such slot, or its unit is taken out
  · exact ⟨⟨fun _ _ => rfl, rfl, rfl, fun _ => rfl⟩, nofun⟩
  · split
    · exact ⟨.refl t s, nofun⟩
    · next u d' _ =>
      dsimp only
      refine ⟨Beside.emit ?_ _, emit_isReport _ t _⟩
      cases t with
      | video =>
        simp only [decide_true, if_true]
        split <;> exact ⟨fun _ _ => rfl, rfl, rfl, nofun⟩
      | audio => exact ⟨fun _ _ => rfl, rfl, rfl, fun _ => rfl⟩

/-- A call by which the decoder of a track begins, is fed, or gets a slot back from its renderer. -/
inductive Plays (t : Track) : DecoderCall → Prop
  | configure (format : MediaFormat) (onSurface : Bool) : Plays t (.configure format onSurface)
  | start : Plays t .start
  | queueInput (slot : Nat) (u : AccessUnit) : Plays t (.queueInput slot u)
  | returnOutput (slot : Nat) : Plays t (t.returnKind.call slot)

theorem decoder_return (hd : s.decoders.get t = some d) (slot : Nat) :
    decoder devices t (t.returnKind.call slot) s = s.returnOutput t d slot (t = .video) := by
  cases t <;> simp [decoder, hd, Track.returnKind, ReturnKind.call]

/-- So whatever the decoder of a track is told in a run, the rest is left alone. -/
theorem decoder_beside {c : DecoderCall} (hc : Plays t c) (s : Simulation) :
    s.Beside t (decoder devices t c s).2 ∧ ∀ m ∈ (decoder devices t c s).1.2, m.IsReport t := by
  cases hd : s.decoders.get t with
  | none =>
    -- a decoder that was not created takes every call without effect
    have hnothing : decoder devices t c s = ((.ok (), []), s) := by
      unfold decoder
      rw [hd]
      rfl
    rw [hnothing]
    exact ⟨.refl t s, nofun⟩
  | some d =>
    cases hc with
    | configure format onSurface =>
      simp only [decoder, hd]
      exact ⟨⟨fun u hu => s.decoders.get_set_of_ne hu _, rfl, rfl, fun _ => rfl⟩, nofun⟩
    | start => -- the only call besides those on slots that reports something: all inputs are free
      simp only [decoder, hd]
      refine ⟨.refl t s, fun m hm => ?_⟩
      rw [List.mem_singleton.mp hm]
      rfl
    | queueInput slot u =>
      simp only [decoder, hd]
      exact queueInput_beside s t d slot u
    | returnOutput slot =>
      rw [decoder_return hd]
      exact returnOutput_beside s t d slot

end Simulation

/-! ## The flows through a pipeline -/

/-- Every slot and every unit of a track is in one place. The messages in `hand` have been taken
from the mailbox, and are still to be handled. -/
structure Flows (devices : SimulatedDevices) (t : Track) (accepted arrived : List AccessUnit)
    (held offered : List Nat) (hand : List Message) (r : Pipeline × World Simulation) : Prop where
  intact : r.2.devices.faults.failingTrack = none
  decoder : ∃ d, r.2.devices.decoders.get t = some d ∧
    SlotFlow devices t held offered (hand ++ r.2.mailbox) r.1 d ∧
    UnitFlow t accepted arrived (hand ++ r.2.mailbox) r.2.devices.presented r.1 d ∧
    (d.decoded = [] ∨ d.freeOutputs = [])

namespace Flows

variable {devices : SimulatedDevices} {t : Track} {accepted arrived : List AccessUnit}
  {held offered slots : List Nat} {slot : Nat} {hand : List Message} {p : Pipeline}
  {w : World Simulation} {u : AccessUnit} {units : List AccessUnit}

/-- A decoder that has handed out what it can has nothing left to do. -/
theorem of_emit {s : Simulation} {mailbox : List Message} {d : EchoDecoder}
    (hintact : s.faults.failingTrack = none)
    (hslots : SlotFlow devices t held offered (hand ++ mailbox) p d)
    (hunits : UnitFlow t accepted arrived (hand ++ mailbox) s.presented p d) :
    Flows devices t accepted arrived held offered hand
      (p, ⟨(s.emit t d).2, mailbox ++ (s.emit t d).1⟩) := by
  have hout : EchoDecoder.HandsOut devices.outputs t.number d.decoded d (s.emit t d).1
      (d.emit t.number d.decoded).2 :=
    EchoDecoder.emit_handsOut d.decoded hslots.stocked
  refine ⟨hintact, _, PerTrack.get_set_self _ _ _, ?_, ?_, hout.exhausted⟩
  · rw [← List.append_assoc]
    exact hslots.emit hout
  · rw [← List.append_assoc]
    exact hunits.emit hout

/-- The decoder is too busy for a unit, or it takes it and gives the input slot back. -/
theorem queueInput (h : Flows devices t accepted arrived held offered hand (p, w))
    (hfree : p.freeInputs = slot :: slots) (hunits : p.pendingUnits = u :: units) :
    let r := ((Simulation.platform devices).decoderDevice t).call (.queueInput slot u) w
    r.1 = .error .busy ∧ Flows devices t accepted arrived held offered hand (p, r.2) ∨
      r.1 = .ok () ∧ Flows devices t accepted arrived held offered hand
        ({ p with
          inputs := p.inputs.put slot .pending, freeInputs := slots, pendingUnits := units },
          r.2) := by
  obtain ⟨hintact, d, hd, hslots, hflow, hexhausted⟩ := h
  have hcall : Simulation.decoder devices t (.queueInput slot u) w.devices =
      w.devices.queueInput t d slot u := by
    unfold Simulation.decoder
    rw [hd]
  simp only [Platform.decoderDevice, Simulation.platform, hcall]
  unfold Simulation.queueInput
  dsimp only
  -- no track fails, so the decoder is busy or takes the unit
  have hsound : w.devices.faults.failingTrack ≠ some t.number := by
    rw [show w.devices.faults.failingTrack = none from hintact]
    nofun
  rw [if_neg hsound]
  split
  · refine Or.inl ⟨rfl, hintact, { d with attempts := d.attempts + 1 },
      PerTrack.get_set_self _ _ _, ?_, ?_, hexhausted⟩
    · rw [List.append_nil]
      exact hslots.congr_decoder rfl rfl
    · rw [List.append_nil]
      exact hflow.congr_decoder rfl rfl rfl
  · refine Or.inr ⟨rfl, ?_⟩
    dsimp only
    -- the slot comes back first, and then what is handed out
    rw [List.append_cons w.mailbox]
    refine of_emit hintact ?_ ?_
    · rw [← List.append_assoc]
      exact (hslots.fill hfree).congr_decoder rfl rfl
    · rw [← List.append_assoc]
      have hgiven : outputsGiven t (hand ++ w.mailbox ++ [.inputsAvailable t.number [slot]]) =
          outputsGiven t (hand ++ w.mailbox) := by
        simp [Message.outputsFor]
      refine UnitFlow.congr_mail ?_ hgiven
      exact hflow.decode hunits rfl rfl rfl rfl

/-- The decoder is too busy for a slot, or it takes it back. -/
theorem takeBack (h : Flows devices t accepted arrived held (slot :: offered) hand (p, w)) :
    let r := ((Simulation.platform devices).decoderDevice t).call (t.returnKind.call slot) w
    r.1 = .error .busy ∧
        Flows devices t accepted arrived held (slot :: offered) hand (p, r.2) ∨
      r.1 = .ok () ∧ Flows devices t accepted arrived held offered hand
        ({ p with outputs := p.outputs.put slot .pending }, r.2) := by
  obtain ⟨hintact, d, hd, hslots, hflow, hexhausted⟩ := h
  simp only [Platform.decoderDevice, Simulation.platform, Simulation.decoder_return hd]
  unfold Simulation.returnOutput
  split
  · refine Or.inl ⟨rfl, hintact, d, hd, ?_, ?_, hexhausted⟩
    · rw [List.append_nil]
      exact hslots
    · rw [List.append_nil]
      exact hflow
  -- the slot is handed out, with a unit in it
  · obtain ⟨hlt, hout⟩ := hslots.offered_out
    obtain ⟨u, d', htaken, hstocked, hfree, hdecoded, hsurface, hhanded⟩ :=
      EchoDecoder.takeBack_stocked hslots.stocked hlt hout
    rw [htaken]
    have hslots' := hslots.taken hstocked hfree
    have hflow' : UnitFlow t accepted arrived (hand ++ w.mailbox)
        (if t = .video then w.devices.presented ++ [u] else w.devices.presented)
        { p with outputs := p.outputs.put slot .pending } d' :=
      (hflow.taken hdecoded hsurface hhanded).congr_pipeline rfl
    refine Or.inr ⟨rfl, ?_⟩
    cases t with
    | video => -- a picture that comes back has been presented
      have hdraws : d'.onSurface = true := hsurface.trans hflow.onSurface
      simp only [decide_true, if_true]
      rw [if_pos hdraws]
      exact of_emit hintact (hslots'.congr_decoder rfl rfl) (hflow'.congr_decoder rfl rfl rfl)
    | audio =>
      exact of_emit hintact (hslots'.congr_decoder rfl rfl) (hflow'.congr_decoder rfl rfl rfl)

/-- The pipeline moves on, and the decoder has nothing to do with it. -/
theorem imp {accepted' arrived' : List AccessUnit} {held' offered' : List Nat}
    {hand' : List Message} {p' : Pipeline}
    (h : Flows devices t accepted arrived held offered hand (p, w))
    (hslots : ∀ d, SlotFlow devices t held offered (hand ++ w.mailbox) p d →
      SlotFlow devices t held' offered' (hand' ++ w.mailbox) p' d)
    (hunits : ∀ d, UnitFlow t accepted arrived (hand ++ w.mailbox) w.devices.presented p d →
      UnitFlow t accepted' arrived' (hand' ++ w.mailbox) w.devices.presented p' d) :
    Flows devices t accepted' arrived' held' offered' hand' (p', w) := by
  obtain ⟨hintact, d, hd, hslot, hunit, hexhausted⟩ := h
  exact ⟨hintact, d, hd, hslots d hslot, hunits d hunit, hexhausted⟩

/-- The tables of the pipeline agree with what is held and offered. -/
theorem exact (h : Flows devices t accepted arrived held offered hand (p, w)) :
    p.Exact held offered := by
  obtain ⟨-, d, -, hslots, -⟩ := h
  exact hslots.exact

theorem kinds (h : Flows devices t accepted arrived held offered hand (p, w)) :
    ∀ entry ∈ p.deferred, entry.2 = t.returnKind := by
  obtain ⟨-, d, -, hslots, -⟩ := h
  exact hslots.kinds

/-- The renderer may hold its slots in another order. -/
theorem perm {held' : List Nat} (h : Flows devices t accepted arrived held offered hand (p, w))
    (hperm : held.Perm held') : Flows devices t accepted arrived held' offered hand (p, w) := by
  refine h.imp (fun d hslots => ?_) fun _ hunits => hunits
  refine { hslots with
    exact := hslots.exact.perm hperm
    outputs := ?_ }
  exact ((hperm.symm.append_left _).append_right _).trans hslots.outputs

/-- What has nothing to do with the track may change. -/
theorem frame {hand' : List Message} {w' : World Simulation}
    (h : Flows devices t accepted arrived held offered hand (p, w))
    (hdecoder : w'.devices.decoders.get t = w.devices.decoders.get t)
    (hfailing : w'.devices.faults.failingTrack = w.devices.faults.failingTrack)
    (hpresented : t = .video → w'.devices.presented = w.devices.presented)
    (hinputs : inputsGiven t (hand' ++ w'.mailbox) = inputsGiven t (hand ++ w.mailbox))
    (houtputs : outputsGiven t (hand' ++ w'.mailbox) = outputsGiven t (hand ++ w.mailbox)) :
    Flows devices t accepted arrived held offered hand' (p, w') := by
  obtain ⟨hintact, d, hd, hslots, hunits, hexhausted⟩ := h
  refine ⟨hfailing.trans hintact, d, hdecoder.trans hd, hslots.congr_mail hinputs houtputs, ?_,
    hexhausted⟩
  have hunits' := hunits.congr_mail houtputs
  exact { hunits' with shown := fun ht => hpresented ht ▸ hunits'.shown ht }

/-- When neither a renderer nor a message nor a retry is needed for any of them, all units of a
track have arrived, and those of the video have been presented. -/
theorem delivered (h : Flows devices t accepted arrived [] [] [] (p, w))
    (hinputs : 0 < devices.inputs) (houtputs : 0 < devices.outputs) (hmail : w.mailbox = [])
    (hdeferred : p.deferred = []) (hidle : p.freeInputs = [] ∨ p.pendingUnits = []) :
    arrived = accepted ∧ (t = .video → w.devices.presented.Perm accepted) := by
  obtain ⟨-, d, -, hslots, hunits, hexhausted⟩ := h
  have hin := hslots.inputs
  have hout := hslots.outputs
  have horder := hunits.order
  have hshown := hunits.shown
  simp only [hmail, hdeferred, List.append_nil, inputsGiven_nil, outputsGiven_nil,
    List.map_nil] at hin hout horder hshown
  -- all input slots are free, so no unit waits for one
  have hpending : p.pendingUnits = [] := by
    refine hidle.resolve_left fun hnone => ?_
    rw [hnone] at hin
    exact absurd hin.length_eq (by simp; omega)
  -- all output slots are free, so nothing decoded waits for one
  have hdecoded : d.decoded = [] := by
    refine hexhausted.resolve_right fun hnone => ?_
    rw [hnone] at hout
    exact absurd hout.length_eq (by simp; omega)
  have hhanded : d.handedOut = [] :=
    hslots.stocked.handedOut_eq_nil fun i hi => hout.mem_iff.mpr (List.mem_range.mpr hi)
  rw [hdecoded, hpending] at horder
  rw [hdecoded, hpending, hhanded] at hshown
  exact ⟨by simpa using horder, fun ht => by simpa using hshown ht⟩

end Flows

/-! ## Operations -/

namespace Pipeline

variable {devices : SimulatedDevices} {t : Track} {accepted arrived : List AccessUnit}
  {held offered : List Nat} {hand : List Message} {r : Pipeline × World Simulation}

/-- The decoder of the simulation takes the front unit or is busy, and never fails. -/
theorem feeds_flows : Feeds ((Simulation.platform devices).decoderDevice t)
    (fun r => Flows devices t accepted arrived held [] hand r) fun _ _ => False where
  filled p w slot slots unit units hfront hanswer _ h := by
    obtain ⟨hbusy, -⟩ | ⟨-, hflows⟩ := h.queueInput hfront.slots hfront.units
    · rw [hbusy] at hanswer
      cases hanswer
    · exact hflows
  -- a decoder that is busy leaves slot and unit where they were
  busy p w slot slots unit units hfront hanswer h := by
    obtain ⟨-, hflows⟩ | ⟨htaken, -⟩ := h.queueInput hfront.slots hfront.units
    · exact hflows.imp
        (fun _ hslots => { hslots with exact := hslots.exact.congr rfl rfl rfl rfl rfl })
        fun _ hunits => hunits.congr_pipeline rfl
    · rw [htaken] at hanswer
      cases hanswer
  -- neither of the two answers is a refusal
  refused p w slot slots unit units reason hfront hanswer h := by
    obtain ⟨hbusy, -⟩ | ⟨htaken, -⟩ := h.queueInput hfront.slots hfront.units
    · rw [hbusy] at hanswer
      cases hanswer
    · rw [htaken] at hanswer
      cases hanswer
  misused p w slot slots unit units text hfront _ _ hstate h :=
    hstate (h.exact.free_state slot (hfront.slots ▸ List.mem_cons_self))

theorem fillInputs_flows (h : Flows devices t accepted arrived held [] hand r) :
    (fillInputs ((Simulation.platform devices).decoderDevice t)).Ends r
      (fun _ r => Flows devices t accepted arrived held [] hand r) fun _ _ => False :=
  (feeds_flows.fillInputs h).imp (fun _ _ hr => hr.1) fun _ _ he => he

/-- A unit is accepted. -/
theorem submit_flows (h : Flows devices t accepted arrived held [] hand r) (unit : AccessUnit) :
    (submit ((Simulation.platform devices).decoderDevice t) unit).Ends r
      (fun _ r => Flows devices t (accepted ++ [unit]) arrived held [] hand r)
      fun _ _ => False := by
  obtain ⟨p, w⟩ := r
  simp only [submit, ends_bind, ends_update]
  exact fillInputs_flows (h.imp
    (fun _ hslots => { hslots with exact := hslots.exact.congr rfl rfl rfl rfl rfl })
    fun _ hunits => hunits.submit unit)

/-- The input slots of a message are taken, one after the other. -/
theorem inputsAvailable_flows {slots : List Nat}
    (h : Flows devices t accepted arrived held [] [.inputsAvailable t.number slots] r) :
    (inputsAvailable ((Simulation.platform devices).decoderDevice t) slots).Ends r
      (fun _ r => Flows devices t accepted arrived held [] [] r) fun _ _ => False := by
  simp only [inputsAvailable, ends_bind]
  refine (ends_forM (E := fun _ _ => False) (I := fun rest r =>
    Flows devices t accepted arrived held [] [.inputsAvailable t.number rest] r) ?_ slots h).imp
    ?_ fun _ _ he => he
  -- the slots that are not yet entered are still in hand
  · rintro slot rest ⟨p, w⟩ hr
    have hslot : p.inputs.state? slot = some .pending := by
      obtain ⟨-, d, -, hslots, -⟩ := hr
      exact hslots.takeInput.1
    simp only [ends_bind]
    refine ends_moveInput (fun _ => ?_) fun _ _ hother => absurd hslot hother
    simp only [ends_update]
    exact hr.imp (fun _ hslots => hslots.takeInput.2)
      fun _ hunits => UnitFlow.congr_mail (hunits.congr_pipeline rfl) rfl
  · rintro _ ⟨p, w⟩ hr
    have hnone : inputsGiven t ([] ++ w.mailbox) =
        inputsGiven t ([.inputsAvailable t.number []] ++ w.mailbox) := by
      simp [Message.inputsFor]
    exact fillInputs_flows (hr.imp (fun _ hslots => hslots.congr_mail hnone rfl)
      fun _ hunits => hunits.congr_mail rfl)

/-- The output of a message arrives at its renderer, which holds the slot from then on. -/
theorem outputReady_flows {slot : Nat} {pts : Int} {payload : List UInt8}
    (h : Flows devices t accepted arrived held [] [.outputReady t.number slot pts payload] r) :
    (outputReady slot pts payload : Step (World Simulation) DecodedOutput).Ends r
      (fun output r' => output = ⟨slot, pts, payload⟩ ∧ r'.2 = r.2 ∧
        Flows devices t accepted (arrived ++ [⟨pts, payload⟩]) (slot :: held) [] [] r')
      fun _ _ => False := by
  obtain ⟨p, w⟩ := r
  have hslot : p.outputs.state? slot = some .pending := by
    obtain ⟨-, d, -, hslots, -⟩ := h
    exact hslots.takeOutput.1
  have hflows := h.imp (fun _ hslots => hslots.takeOutput.2)
    fun _ hunits => hunits.arrive.congr_pipeline rfl
  simp only [outputReady, ends_bind, ends_pure]
  exact ends_moveOutput _ _ hslot ⟨trivial, rfl, hflows⟩

/-- A slot that is offered, as its renderer returns it, is taken back or deferred. -/
theorem takesBack_flows : TakesBack ((Simulation.platform devices).decoderDevice t)
    (fun rest r => (∀ entry ∈ rest, entry.2 = t.returnKind) ∧
      Flows devices t accepted arrived held (rest.map (·.1)) hand r) fun _ _ => False where
  taken p w slot kind rest hanswer _ h := by
    obtain ⟨hkind, hkinds⟩ := List.forall_mem_cons.mp h.1
    obtain rfl : kind = t.returnKind := hkind
    obtain ⟨hbusy, -⟩ | ⟨-, hflows⟩ := h.2.takeBack
    · rw [hbusy] at hanswer
      cases hanswer
    · exact ⟨hkinds, hflows⟩
  deferred p w slot kind rest hanswer h := by
    obtain ⟨hkind, hkinds⟩ := List.forall_mem_cons.mp h.1
    obtain rfl : kind = t.returnKind := hkind
    obtain ⟨-, hflows⟩ | ⟨htaken, -⟩ := h.2.takeBack
    · exact ⟨hkinds, hflows.imp (fun _ hslots => hslots.defer)
        fun _ hunits => hunits.congr_pipeline rfl⟩
    · rw [htaken] at hanswer
      cases hanswer
  -- neither of the two answers is a refusal
  refused p w slot kind rest reason hanswer h := by
    obtain rfl : kind = t.returnKind := (List.forall_mem_cons.mp h.1).1
    obtain ⟨hbusy, -⟩ | ⟨htaken, -⟩ := h.2.takeBack
    · rw [hbusy] at hanswer
      cases hanswer
    · rw [htaken] at hanswer
      cases hanswer
  misused p w slot kind rest text _ _ hstate h :=
    hstate (h.2.exact.returning_state slot (by simp))

/-- A slot that is offered goes back, or is deferred. -/
theorem finishReturn_flows {slot : Nat}
    (h : Flows devices t accepted arrived held [slot] hand r) :
    (finishReturn ((Simulation.platform devices).decoderDevice t) slot t.returnKind).Ends r
      (fun _ r => Flows devices t accepted arrived held [] hand r) fun _ _ => False :=
  (takesBack_flows.finishReturn slot t.returnKind [] ⟨by simp, h⟩).imp (fun _ _ hr => hr.2)
    fun _ _ he => he

/-- A slot that is held goes back. -/
theorem returnOutput_flows :
    Passes (fun slot =>
      returnOutput ((Simulation.platform devices).decoderDevice t) slot t.returnKind)
      (fun held r => Flows devices t accepted arrived held [] hand r) fun _ _ => False := by
  rintro slot held ⟨p, w⟩ h
  simp only [returnOutput, ends_bind]
  refine ends_moveOutput _ _ (h.exact.held_state slot List.mem_cons_self) ?_
  have hflows := h.imp (fun _ hslots => hslots.giveBack)
    fun _ hunits => hunits.congr_pipeline rfl
  exact (finishReturn_flows hflows).imp (fun _ _ hr => hr) fun _ _ he => he.elim

/-- A decoder that starts owns its output slots and gives its input slots. -/
theorem configure_flows {w : World Simulation}
    (hintact : w.devices.faults.failingTrack = none)
    (hdecoder : w.devices.decoders.get t = some (.new devices.outputs))
    (hpresented : t = .video → w.devices.presented = [])
    (hinputs : inputsGiven t w.mailbox = []) (houtputs : outputsGiven t w.mailbox = [])
    (format : MediaFormat) :
    (configure ((Simulation.platform devices).decoderDevice t) format (t = .video)).Ends
      ({ track := t.number }, w) (fun _ r => Flows devices t [] [] [] [] [] r)
      fun _ _ => False := by
  -- both calls are accepted, so the run is known in full
  have hrun : (configure ((Simulation.platform devices).decoderDevice t) format (t = .video)).Ends
      ({ track := t.number }, w)
      (fun _ r => r.1 = .fresh t.number devices.inputs devices.outputs ∧
        r.2 = ⟨{ w.devices with
            decoders := w.devices.decoders.set t
              (some { EchoDecoder.new devices.outputs with onSurface := t = .video }) },
          w.mailbox ++ [.inputsAvailable t.number (List.range devices.inputs)]⟩)
      fun _ _ => False := by
    simp only [configure, ends_bind]
    refine ends_demand _ (fun _ => ?_) fun e he => ?_
    · refine ends_demand _ (fun _ => ?_) fun e he => ?_
      · simp [Platform.decoderDevice, Simulation.platform, Simulation.decoder, hdecoder, fresh]
      · simp [Platform.decoderDevice, Simulation.platform, Simulation.decoder, hdecoder] at he
        cases he
    · simp [Platform.decoderDevice, Simulation.platform, Simulation.decoder, hdecoder] at he
      cases he
  refine ((configure_exact format (t = .video) t.number w).and hrun).imp ?_ fun _ _ he => he.2
  rintro _ ⟨p, w'⟩ ⟨hexact, hp, hw⟩
  cases hp
  cases hw
  refine ⟨hintact, _, PerTrack.get_set_self _ _ _, .fresh hexact ?_ ?_, .fresh ?_ ?_ rfl,
    Or.inl rfl⟩
  · simp [hinputs, Message.inputsFor]
  · simp [houtputs, Message.outputsFor]
  · exact hpresented
  · simp [houtputs, Message.outputsFor]

/-- What was deferred is offered again, and units go in while slots last. -/
theorem retry_flows (h : Flows devices t accepted arrived held [] hand r) :
    (retry ((Simulation.platform devices).decoderDevice t)).Ends r
      (fun _ r => Flows devices t accepted arrived held [] hand r) fun _ _ => False := by
  obtain ⟨p, w⟩ := r
  have hflows := h.imp (fun _ hslots => hslots.offerAgain)
    fun _ hunits => hunits.congr_pipeline rfl
  simp only [retry, ends_bind]
  -- each entry comes with the kind of return that it was deferred with
  have hall : ∀ entry ∈ p.deferred.map fun entry => (entry.1, id entry.2),
      entry.2 = t.returnKind := by
    simpa using h.kinds
  have hoffered : Flows devices t accepted arrived held
      ((p.deferred.map fun entry => (entry.1, id entry.2)).map (·.1)) hand
      ({ p with deferred := [] }, w) := by
    rw [List.map_map]
    exact hflows
  exact (takesBack_flows.retryReturns id ⟨hall, hoffered⟩).imp
    (fun _ _ hr => fillInputs_flows hr.2) fun _ _ he => he

end Pipeline

end Playout
