import Playout.Proofs.Decode.Misuse
import Playout.Proofs.Platform.Echo

/-!
# Where the slots and the units of a track are

Between a pipeline and its echoing decoder nothing is lost: what one side gives away waits in the
mailbox until the other takes it. `SlotFlow` says where each slot is, and `UnitFlow` where each unit
that the track accepted:

    input slots     with the pipeline, or given in a message
    output slots    free, reported in a message, held by the renderer, or on their way back
    units           presented or arrived, reported in a message, decoded, or waiting

Each section has the lemmas for one way on which something moves.
-/

namespace Playout

/-- How the renderer of a track returns a slot. -/
def Track.returnKind : Track → ReturnKind
  | .video => .render
  | .audio => .release

/-! ## What waits in the mailbox -/

namespace Message

/-- The input slots that a message gives to a track. -/
def inputsFor (t : Track) : Message → List Nat
  | .inputsAvailable track slots => if track = t.number then slots else []
  | _ => []

/-- The output that a message reports to a track. -/
def outputsFor (t : Track) : Message → List DecodedOutput
  | .outputReady track slot pts payload => if track = t.number then [⟨slot, pts, payload⟩] else []
  | _ => []

end Message

/-- The input slots that are on their way to a track. -/
def inputsGiven (t : Track) (mail : List Message) : List Nat := mail.flatMap (·.inputsFor t)

/-- The outputs that are on their way to a track. -/
def outputsGiven (t : Track) (mail : List Message) : List DecodedOutput :=
  mail.flatMap (·.outputsFor t)

section Given

variable (t : Track) (m : Message) (mail mail' : List Message) (outs : List DecodedOutput)

@[simp] theorem inputsGiven_nil : inputsGiven t [] = [] := rfl

@[simp] theorem outputsGiven_nil : outputsGiven t [] = [] := rfl

@[simp] theorem inputsGiven_cons :
    inputsGiven t (m :: mail) = m.inputsFor t ++ inputsGiven t mail := List.flatMap_cons

@[simp] theorem outputsGiven_cons :
    outputsGiven t (m :: mail) = m.outputsFor t ++ outputsGiven t mail := List.flatMap_cons

@[simp] theorem inputsGiven_append :
    inputsGiven t (mail ++ mail') = inputsGiven t mail ++ inputsGiven t mail' :=
  List.flatMap_append

@[simp] theorem outputsGiven_append :
    outputsGiven t (mail ++ mail') = outputsGiven t mail ++ outputsGiven t mail' :=
  List.flatMap_append

/-- Reports of outputs give no input slots. -/
@[simp] theorem inputsGiven_reports (track : Nat) :
    inputsGiven t (outs.map (·.report track)) = [] := by
  simp [inputsGiven, DecodedOutput.report, Message.inputsFor]

/-- Reports of outputs bring these outputs. -/
@[simp] theorem outputsGiven_reports : outputsGiven t (outs.map (·.report t.number)) = outs := by
  simp [outputsGiven, DecodedOutput.report, Message.outputsFor, List.flatMap_map]

end Given

/-! ## The two flows -/

/-- Every slot of a track is in one place, and the tables of the pipeline agree. -/
structure SlotFlow (devices : SimulatedDevices) (t : Track) (held offered : List Nat)
    (mail : List Message) (p : Pipeline) (d : EchoDecoder) : Prop where
  exact : p.Exact held offered
  stocked : d.Stocked devices.outputs
  inputs : (p.freeInputs ++ inputsGiven t mail).Perm (List.range devices.inputs)
  inputs_pending : p.inputs.AllIn .pending (inputsGiven t mail)
  outputs : (d.freeOutputs ++ (outputsGiven t mail).map (·.slot) ++ held ++
    (offered ++ p.deferred.map (·.1))).Perm (List.range devices.outputs)
  outputs_pending : p.outputs.AllIn .pending (d.freeOutputs ++ (outputsGiven t mail).map (·.slot))
  kinds : ∀ entry ∈ p.deferred, entry.2 = t.returnKind

/-- Every unit that a track accepted is in one place. In the order in which they came stand the
units that arrived at the renderer and those that are still to do so. -/
structure UnitFlow (t : Track) (accepted arrived : List AccessUnit) (mail : List Message)
    (presented : List AccessUnit) (p : Pipeline) (d : EchoDecoder) : Prop where
  order : arrived ++ (outputsGiven t mail).map (·.unit) ++ d.decoded ++ p.pendingUnits = accepted
  shown : t = .video →
    (presented ++ d.handedOut ++ d.decoded ++ p.pendingUnits).Perm accepted
  onSurface : d.onSurface = decide (t = .video)

variable {devices : SimulatedDevices} {t : Track} {accepted arrived presented : List AccessUnit}
  {held offered slots : List Nat} {slot : Nat} {mail mail' posted : List Message} {p p' : Pipeline}
  {d d' : EchoDecoder} {u : AccessUnit} {units : List AccessUnit}

/-- The pipeline of a decoder that has just been started. -/
def Pipeline.fresh (track inputs outputs : Nat) : Pipeline where
  track
  inputs := .new track inputs
  outputs := .new track outputs
  started := true

/-! ### Slots -/

/-- In a new table the decoder owns every slot. -/
theorem SlotTable.new_allIn (track count : Nat) :
    (SlotTable.new track count).AllIn .pending (List.range count) := by
  intro i hi
  simp [state?, new, List.mem_range.mp hi]

namespace SlotFlow

/-- The decoder owns all slots, and has given those for inputs. -/
theorem fresh {track : Nat} {onSurface : Bool}
    (hexact : (Pipeline.fresh track devices.inputs devices.outputs).Exact [] [])
    (hinputs : inputsGiven t mail = List.range devices.inputs)
    (houtputs : outputsGiven t mail = []) :
    SlotFlow devices t [] [] mail (.fresh track devices.inputs devices.outputs)
      { EchoDecoder.new devices.outputs with onSurface } := by
  refine ⟨hexact, (EchoDecoder.new_stocked devices.outputs).congr rfl rfl, ?_, ?_, ?_, ?_, nofun⟩
  · rw [hinputs]
    exact List.Perm.refl _
  · rw [hinputs]
    exact SlotTable.new_allIn track devices.inputs
  · simp [houtputs, EchoDecoder.new, Pipeline.fresh]
  · simpa [houtputs, EchoDecoder.new, Pipeline.fresh] using
      SlotTable.new_allIn track devices.outputs

theorem congr_mail (h : SlotFlow devices t held offered mail p d)
    (hinputs : inputsGiven t mail' = inputsGiven t mail)
    (houtputs : outputsGiven t mail' = outputsGiven t mail) :
    SlotFlow devices t held offered mail' p d where
  exact := h.exact
  stocked := h.stocked
  inputs := by rw [hinputs]; exact h.inputs
  inputs_pending := by rw [hinputs]; exact h.inputs_pending
  outputs := by rw [houtputs]; exact h.outputs
  outputs_pending := by rw [houtputs]; exact h.outputs_pending
  kinds := h.kinds

theorem congr_decoder (h : SlotFlow devices t held offered mail p d)
    (hfree : d'.freeOutputs = d.freeOutputs) (houtputs : d'.outputs = d.outputs) :
    SlotFlow devices t held offered mail p d' where
  exact := h.exact
  stocked := h.stocked.congr hfree houtputs
  inputs := h.inputs
  inputs_pending := h.inputs_pending
  outputs := by rw [hfree]; exact h.outputs
  outputs_pending := by rw [hfree]; exact h.outputs_pending
  kinds := h.kinds

/-- The decoder hands out what it has. -/
theorem emit (h : SlotFlow devices t held offered mail p d)
    (hout : EchoDecoder.HandsOut devices.outputs t.number units d posted d') :
    SlotFlow devices t held offered (mail ++ posted) p d' := by
  obtain ⟨outs, rfl, hslots, -⟩ := hout.posted
  -- slots that were free are reported now, and both owe them to the decoder
  have hmoved : (d'.freeOutputs ++ (outputsGiven t mail ++ outs).map (·.slot)).Perm
      (d.freeOutputs ++ (outputsGiven t mail).map (·.slot)) := by
    rw [← hslots]
    refine List.perm_iff_count.mpr fun i => ?_
    simp only [List.map_append, List.count_append]
    omega
  refine ⟨h.exact, hout.stocked, ?_, ?_, ?_, ?_, h.kinds⟩
  · simpa using h.inputs
  · simpa using h.inputs_pending
  · rw [outputsGiven_append, outputsGiven_reports]
    exact ((hmoved.append_right held).append_right _).trans h.outputs
  · rw [outputsGiven_append, outputsGiven_reports]
    exact fun i hi => h.outputs_pending i (hmoved.mem_iff.mp hi)

/-- The input slot in front is filled, and the decoder gives it back. -/
theorem fill (h : SlotFlow devices t held offered mail p d)
    (hfree : p.freeInputs = slot :: slots) :
    SlotFlow devices t held offered (mail ++ [.inputsAvailable t.number [slot]])
      { p with
        inputs := p.inputs.put slot .pending, freeInputs := slots, pendingUnits := units } d := by
  have hslot : p.inputs.state? slot = some .free :=
    h.exact.free_state slot (hfree ▸ List.mem_cons_self)
  -- the slot passes from the front of the queue to the end of the mail
  have hgiven : inputsGiven t (mail ++ [.inputsAvailable t.number [slot]]) =
      inputsGiven t mail ++ [slot] := by
    simp [Message.inputsFor]
  have hperm : (inputsGiven t mail ++ [slot]).Perm (slot :: inputsGiven t mail) :=
    List.perm_append_singleton _ _
  refine ⟨h.exact.fill hfree units, h.stocked, ?_, ?_, ?_, ?_, h.kinds⟩
  · have hinputs := h.inputs
    rw [hfree] at hinputs
    rw [hgiven]
    refine List.Perm.trans ?_ hinputs
    exact (hperm.append_left slots).trans List.perm_middle
  · rw [hgiven]
    intro i hi
    exact h.inputs_pending.put_cons hslot (by decide) i (hperm.mem_iff.mp hi)
  · simpa [Message.outputsFor] using h.outputs
  · simpa [Message.outputsFor] using h.outputs_pending

/-- A renderer returns a slot. -/
theorem giveBack (h : SlotFlow devices t (slot :: held) offered mail p d) :
    SlotFlow devices t held (slot :: offered) mail
      { p with outputs := p.outputs.put slot .returning } d := by
  have hslot := h.exact.held_state slot List.mem_cons_self
  have hnot := h.outputs_pending.not_mem hslot (by decide)
  refine ⟨h.exact.giveBack, h.stocked, h.inputs, h.inputs_pending, ?_,
    h.outputs_pending.put hnot _, h.kinds⟩
  refine List.Perm.trans (List.perm_iff_count.mpr fun i => ?_) h.outputs
  simp only [List.count_append, List.count_cons]
  omega

/-- The decoder is too busy for a slot. -/
theorem defer (h : SlotFlow devices t held (slot :: offered) mail p d) :
    SlotFlow devices t held offered mail
      { p with deferred := p.deferred ++ [(slot, t.returnKind)], retryNeeded := true } d := by
  refine ⟨h.exact.defer _, h.stocked, h.inputs, h.inputs_pending, ?_, h.outputs_pending, ?_⟩
  · refine List.Perm.trans (List.perm_iff_count.mpr fun i => ?_) h.outputs
    simp only [List.map_append, List.map_cons, List.map_nil, List.count_append, List.count_cons,
      List.count_nil]
    omega
  · intro entry hentry
    rcases List.mem_append.mp hentry with hentry | hentry
    · exact h.kinds entry hentry
    · rw [List.mem_singleton.mp hentry]

/-- The slots that were deferred are offered again. -/
theorem offerAgain (h : SlotFlow devices t held [] mail p d) :
    SlotFlow devices t held (p.deferred.map (·.1)) mail { p with deferred := [] } d := by
  refine ⟨?_, h.stocked, h.inputs, h.inputs_pending, ?_, h.outputs_pending, nofun⟩
  · refine { h.exact with
      returning_nodup := ?_
      returning_state := ?_ }
    · simpa using h.exact.returning_nodup
    · simpa using h.exact.returning_state
  · simpa using h.outputs

/-- A slot that is offered was handed out. -/
theorem offered_out (h : SlotFlow devices t held (slot :: offered) mail p d) :
    slot < devices.outputs ∧ slot ∉ d.freeOutputs := by
  have hslot := h.exact.returning_state slot (by simp)
  refine ⟨?_, fun hfree => ?_⟩
  · rw [← List.mem_range, ← h.outputs.mem_iff]
    simp
  · exact h.outputs_pending.not_mem hslot (by decide) (List.mem_append_left _ hfree)

/-- The decoder takes a slot back. -/
theorem taken (h : SlotFlow devices t held (slot :: offered) mail p d)
    (hstocked : d'.Stocked devices.outputs) (hfree : d'.freeOutputs = d.freeOutputs ++ [slot]) :
    SlotFlow devices t held offered mail { p with outputs := p.outputs.put slot .pending } d' := by
  have hslot := h.exact.returning_state slot (by simp)
  refine ⟨h.exact.taken, hstocked, h.inputs, h.inputs_pending, ?_, ?_, h.kinds⟩
  · rw [hfree]
    -- the slot goes from those that are offered to the free ones, so each is counted as before
    refine List.Perm.trans (List.perm_iff_count.mpr fun i => ?_) h.outputs
    simp only [List.count_append, List.count_cons, List.count_nil]
    omega
  · rw [hfree]
    intro i hi
    refine h.outputs_pending.put_cons hslot (by decide) i ?_
    simp only [List.mem_append, List.mem_cons, List.not_mem_nil, or_false] at hi ⊢
    tauto

/-- The pipeline takes the first of the input slots that a message gives. -/
theorem takeInput
    (h : SlotFlow devices t held offered (.inputsAvailable t.number (slot :: slots) :: mail) p d) :
    p.inputs.state? slot = some .pending ∧
      SlotFlow devices t held offered (.inputsAvailable t.number slots :: mail)
        { p with
          inputs := p.inputs.put slot .free, freeInputs := p.freeInputs ++ [slot] } d := by
  have hgiven (slots : List Nat) :
      inputsGiven t (.inputsAvailable t.number slots :: mail) = slots ++ inputsGiven t mail := by
    simp [Message.inputsFor]
  have hinputs := h.inputs
  have hpending := h.inputs_pending
  rw [hgiven] at hinputs hpending
  -- a slot on its way to the pipeline is still with the decoder, by the table
  have hslot : p.inputs.state? slot = some .pending := hpending slot (by simp)
  have hnodup : (slot :: slots ++ inputsGiven t mail).Nodup :=
    (List.nodup_append.mp (hinputs.nodup_iff.mpr List.nodup_range)).2.1
  have hrest : p.inputs.AllIn .pending (slots ++ inputsGiven t mail) := fun i hi =>
    hpending i (List.mem_cons_of_mem _ hi)
  refine ⟨hslot, h.exact.give hslot, h.stocked, ?_, ?_, h.outputs, h.outputs_pending, h.kinds⟩
  · rw [hgiven]
    simpa using hinputs
  · rw [hgiven]
    exact hrest.put (List.nodup_cons.mp hnodup).1 _

/-- The renderer takes an output that a message reports. -/
theorem takeOutput {pts : Int} {payload : List UInt8}
    (h : SlotFlow devices t held [] (.outputReady t.number slot pts payload :: mail) p d) :
    p.outputs.state? slot = some .pending ∧
      SlotFlow devices t (slot :: held) [] mail
        { p with outputs := p.outputs.put slot .holdingOutput } d := by
  have hgiven : (outputsGiven t (.outputReady t.number slot pts payload :: mail)).map (·.slot) =
      slot :: (outputsGiven t mail).map (·.slot) := by
    simp [Message.outputsFor]
  have houtputs := h.outputs
  have hpending := h.outputs_pending
  rw [hgiven] at houtputs hpending
  have hslot : p.outputs.state? slot = some .pending := hpending slot (by simp)
  have hrest : p.outputs.AllIn .pending
      (d.freeOutputs ++ (outputsGiven t mail).map (·.slot)) := fun i hi => by
    refine hpending i ?_
    simp only [List.mem_append, List.mem_cons] at hi ⊢
    tauto
  have hnodup : (d.freeOutputs ++ slot :: (outputsGiven t mail).map (·.slot)).Nodup := by
    have hall := houtputs.nodup_iff.mpr List.nodup_range
    exact (List.nodup_append.mp (List.nodup_append.mp hall).1).1
  -- no slot is in two places, so the others keep their owner
  have hnot := (List.nodup_cons.mp (List.perm_middle.nodup_iff.mp hnodup)).1
  refine ⟨hslot, h.exact.handOut hslot, h.stocked, ?_, ?_, ?_, hrest.put hnot _, h.kinds⟩
  · simpa [Message.inputsFor] using h.inputs
  · simpa [Message.inputsFor] using h.inputs_pending
  · refine List.Perm.trans (List.perm_iff_count.mpr fun i => ?_) houtputs
    simp only [List.count_append, List.count_cons, List.count_nil]
    omega

end SlotFlow

/-! ### Units -/

namespace UnitFlow

/-- Nothing has been accepted yet. -/
theorem fresh {track inputs outputs : Nat} {onSurface : Bool}
    (hpresented : t = .video → presented = []) (houtputs : outputsGiven t mail = [])
    (hsurface : onSurface = decide (t = .video)) :
    UnitFlow t [] [] mail presented (.fresh track inputs outputs)
      { EchoDecoder.new outputs with onSurface } := by
  refine ⟨?_, fun ht => ?_, hsurface⟩
  · simp [houtputs, EchoDecoder.new, Pipeline.fresh]
  · simp [hpresented ht, EchoDecoder.new, EchoDecoder.handedOut, Pipeline.fresh,
      List.reduceOption_replicate_none]

theorem congr_mail (h : UnitFlow t accepted arrived mail presented p d)
    (houtputs : outputsGiven t mail' = outputsGiven t mail) :
    UnitFlow t accepted arrived mail' presented p d :=
  ⟨by rw [houtputs]; exact h.order, h.shown, h.onSurface⟩

theorem congr_pipeline (h : UnitFlow t accepted arrived mail presented p d)
    (hunits : p'.pendingUnits = p.pendingUnits) :
    UnitFlow t accepted arrived mail presented p' d :=
  ⟨by rw [hunits]; exact h.order, by rw [hunits]; exact h.shown, h.onSurface⟩

theorem congr_decoder (h : UnitFlow t accepted arrived mail presented p d)
    (hdecoded : d'.decoded = d.decoded) (houtputs : d'.outputs = d.outputs)
    (hsurface : d'.onSurface = d.onSurface) :
    UnitFlow t accepted arrived mail presented p d' where
  order := by rw [hdecoded]; exact h.order
  shown := by rw [hdecoded, EchoDecoder.handedOut, houtputs]; exact h.shown
  onSurface := hsurface.trans h.onSurface

/-- The decoder hands out what it has. -/
theorem emit (h : UnitFlow t accepted arrived mail presented p d)
    (hout : EchoDecoder.HandsOut devices.outputs t.number d.decoded d posted d') :
    UnitFlow t accepted arrived (mail ++ posted) presented p d' := by
  obtain ⟨outs, rfl, -, hunits⟩ := hout.posted
  refine ⟨?_, fun ht => ?_, hout.onSurface.trans h.onSurface⟩
  · have horder := h.order
    rw [← hunits] at horder
    rw [outputsGiven_append, outputsGiven_reports]
    simpa using horder
  · refine List.Perm.trans (List.perm_iff_count.mpr fun u => ?_) (h.shown ht)
    have hconserved := hout.conserved.count_eq u
    simp only [List.count_append] at hconserved ⊢
    omega

/-- A unit waits for an input slot. -/
theorem submit (h : UnitFlow t accepted arrived mail presented p d)
    (u : AccessUnit) :
    UnitFlow t (accepted ++ [u]) arrived mail presented
      { p with pendingUnits := p.pendingUnits ++ [u] } d := by
  refine ⟨?_, fun ht => ?_, h.onSurface⟩
  · rw [← h.order]
    simp
  · simpa using (h.shown ht).append_right [u]

/-- The decoder takes the first of the units that wait. -/
theorem decode (h : UnitFlow t accepted arrived mail presented p d)
    (hunits : p.pendingUnits = u :: units) (hpending : p'.pendingUnits = units)
    (hdecoded : d'.decoded = d.decoded ++ [u]) (houtputs : d'.outputs = d.outputs)
    (hsurface : d'.onSurface = d.onSurface) :
    UnitFlow t accepted arrived mail presented p' d' := by
  have horder := h.order
  have hshown := h.shown
  rw [hunits] at horder hshown
  refine ⟨?_, ?_, hsurface.trans h.onSurface⟩
  · rw [hdecoded, hpending]
    simpa using horder
  · rw [hdecoded, hpending]
    simpa [EchoDecoder.handedOut, houtputs] using hshown

/-- An output arrives at its renderer. -/
theorem arrive {pts : Int} {payload : List UInt8}
    (h : UnitFlow t accepted arrived (.outputReady t.number slot pts payload :: mail) presented p
      d) :
    UnitFlow t accepted (arrived ++ [⟨pts, payload⟩]) mail presented p d := by
  refine ⟨?_, h.shown, h.onSurface⟩
  have horder := h.order
  simpa [Message.outputsFor, DecodedOutput.unit] using horder

/-- A slot is taken back, and the unit in it has been presented if it is a frame of the video. -/
theorem taken (h : UnitFlow t accepted arrived mail presented p d)
    (hdecoded : d'.decoded = d.decoded) (hsurface : d'.onSurface = d.onSurface)
    (hout : d.handedOut.Perm (u :: d'.handedOut)) :
    UnitFlow t accepted arrived mail (if t = .video then presented ++ [u] else presented) p d' := by
  refine ⟨by rw [hdecoded]; exact h.order, fun ht => ?_, hsurface.trans h.onSurface⟩
  rw [if_pos ht, hdecoded]
  refine List.Perm.trans (List.perm_iff_count.mpr fun v => ?_) (h.shown ht)
  have hcount := hout.count_eq v
  simp only [List.count_append, List.count_cons, List.count_nil] at hcount ⊢
  omega

end UnitFlow

end Playout
