import Playout.Proofs.Decode.Trace

/-!
# What every run of a pipeline keeps

`Upholds J K` lists what the parts of the operations do to a pipeline and its trace: `J` is kept by
every part, and where an operation ends in a fault, `K` holds. The slots need no mention there. They
are `Accounted` for in every run, which is shown here once for all `J`, and so is this:

    Upholds.perform : a misuse of a slot is one of the slots that the operation names
    Endures.perform : the same of a teardown too, if `J` is kept when the queues are emptied

What the pipeline does by itself, filling a free input slot or taking back an output slot that the
decoder accepted, never fails.
-/

namespace Playout

/-- What is entered is with the decoder, each slot once: the first time makes it free. -/
theorem SlotTable.entered_pending {t : SlotTable} (slots : List Nat) :
    t.AllIn .pending (t.entered slots) ∧ (t.entered slots).Nodup := by
  induction slots generalizing t with
  | nil => exact ⟨fun _ hi => absurd hi List.not_mem_nil, List.nodup_nil⟩
  | cons slot slots ih =>
    rw [entered]
    split
    · next hslot =>
      obtain ⟨hpending, hnodup⟩ := ih (t := t.put slot .free)
      -- a slot that is entered is free from then on, so it is not entered again
      have hne : slot ∉ (t.put slot .free).entered slots :=
        hpending.not_mem (state?_put_self hslot .free) (by decide)
      refine ⟨?_, List.nodup_cons.mpr ⟨hne, hnodup⟩⟩
      intro i hi
      rcases List.mem_cons.mp hi with rfl | hi
      · exact hslot
      · rw [← state?_put_of_ne (ne_of_mem_of_not_mem hi hne) t .free]
        exact hpending i hi
    · exact ⟨fun _ hi => absurd hi List.not_mem_nil, List.nodup_nil⟩

namespace Pipeline

open Playout.Action

variable {δ : Type}

/-! ## Accounting for slots -/

/-- The slots agree with the queues, as in a pipeline that has started, whether this one has or
not. Those in `offered` are on their way back, besides the deferred ones. -/
def Accounted (p : Pipeline) (offered : List Nat) : Prop :=
  ∃ held, { p with started := true }.Exact held offered

namespace Accounted

variable {p p' : Pipeline} {offered : List Nat} {slot : Nat}

theorem congr (h : p.Accounted offered) (houtputs : p'.outputs = p.outputs)
    (hdeferred : p'.deferred = p.deferred) (hinputs : p'.inputs = p.inputs)
    (hfree : p'.freeInputs = p.freeInputs) : p'.Accounted offered := by
  obtain ⟨held, hexact⟩ := h
  exact ⟨held, hexact.congr rfl houtputs hdeferred hinputs hfree⟩

/-- What is offered may be forgotten. -/
theorem drop_offered (h : p.Accounted offered) : p.Accounted [] := by
  obtain ⟨held, hexact⟩ := h
  exact ⟨held, hexact.drop_offered⟩

/-- A held slot starts on its way back. -/
theorem giveBack (h : p.Accounted offered) (hslot : p.outputs.state? slot = some .holdingOutput) :
    { p with outputs := p.outputs.put slot .returning }.Accounted (slot :: offered) := by
  obtain ⟨held, hexact⟩ := h
  have hperm : held.Perm (slot :: held.erase slot) :=
    List.perm_cons_erase (hexact.held_all slot hslot)
  exact ⟨held.erase slot, (hexact.perm hperm).giveBack⟩

/-- A slot on its way back is taken. -/
theorem taken (h : p.Accounted (slot :: offered)) :
    { p with outputs := p.outputs.put slot .pending }.Accounted offered := by
  obtain ⟨held, hexact⟩ := h
  exact ⟨held, hexact.taken⟩

/-- A slot on its way back is put off. -/
theorem defer (h : p.Accounted (slot :: offered)) (kind : ReturnKind) :
    { p with deferred := p.deferred ++ [(slot, kind)], retryNeeded := true }.Accounted offered := by
  obtain ⟨held, hexact⟩ := h
  exact ⟨held, hexact.defer kind⟩

/-- The deferred returns are taken out to be offered. -/
theorem takeOut (h : p.Accounted []) :
    ({ p with deferred := [] } : Pipeline).Accounted (p.deferred.map (·.1)) := by
  obtain ⟨held, hexact⟩ := h
  refine ⟨held, ⟨rfl, hexact.held_nodup, hexact.held_state, ?_, ?_⟩, hexact.held_all,
    hexact.free_nodup, hexact.free_state⟩
  · simpa using hexact.returning_nodup
  · simpa using hexact.returning_state

/-- A slot of the decoder is handed out. -/
theorem handOut (h : p.Accounted offered) (hslot : p.outputs.state? slot = some .pending) :
    { p with outputs := p.outputs.put slot .holdingOutput }.Accounted offered := by
  obtain ⟨held, hexact⟩ := h
  exact ⟨slot :: held, hexact.handOut hslot⟩

/-- The front slot is filled. -/
theorem fill {slots : List Nat} (h : p.Accounted offered) (hfree : p.freeInputs = slot :: slots)
    (units : List AccessUnit) :
    { p with
      inputs := p.inputs.put slot .pending, freeInputs := slots, pendingUnits := units }.Accounted
      offered := by
  obtain ⟨held, hexact⟩ := h
  exact ⟨held, hexact.fill hfree units⟩

/-- A slot that was given becomes free. -/
theorem enter (h : p.Accounted offered) (hslot : p.inputs.state? slot = some .pending) :
    { p with
      inputs := p.inputs.put slot .free, freeInputs := p.freeInputs ++ [slot] }.Accounted
      offered := by
  obtain ⟨held, hexact⟩ := h
  exact ⟨held, hexact.give hslot⟩

/-- What waits is forgotten, and the slots stay where they are. -/
theorem clear (h : p.Accounted offered) (houtputs : p'.outputs = p.outputs)
    (hdeferred : p'.deferred = []) (hfree : p'.freeInputs = []) : p'.Accounted [] := by
  obtain ⟨held, hexact⟩ := h
  refine ⟨held, ⟨rfl, hexact.held_nodup, ?_, ?_, ?_⟩, ?_, ?_, ?_⟩
  · exact houtputs ▸ hexact.held_state
  · simp [hdeferred]
  · simp [hdeferred, SlotTable.AllIn]
  · exact houtputs ▸ hexact.held_all
  · simp [hfree]
  · simp [hfree, SlotTable.AllIn]

/-- The queued input slots are free. -/
theorem free_state (h : p.Accounted offered) : p.inputs.AllIn .free p.freeInputs := by
  obtain ⟨held, hexact⟩ := h
  exact hexact.free_state

theorem free_nodup (h : p.Accounted offered) : p.freeInputs.Nodup := by
  obtain ⟨held, hexact⟩ := h
  exact hexact.free_nodup

/-- What is offered or deferred is on its way back. -/
theorem returning_state (h : p.Accounted offered) :
    p.outputs.AllIn .returning (offered ++ p.deferred.map (·.1)) := by
  obtain ⟨held, hexact⟩ := h
  exact hexact.returning_state

/-- No slot is on its way back twice. -/
theorem returning_nodup (h : p.Accounted offered) :
    (offered ++ p.deferred.map (·.1)).Nodup := by
  obtain ⟨held, hexact⟩ := h
  exact hexact.returning_nodup

end Accounted

/-- Nothing has been asked of the pipeline yet: its decoder owns every slot. -/
structure Fresh (p : Pipeline) : Prop where
  inputs : ∀ slot s, p.inputs.state? slot = some s → s = .pending
  outputs : ∀ slot s, p.outputs.state? slot = some s → s = .pending
  freeInputs : p.freeInputs = []
  pendingUnits : p.pendingUnits = []
  deferred : p.deferred = []

/-- With new tables and empty queues a pipeline is fresh. -/
theorem Fresh.ofNew {p : Pipeline} {track inputs outputs : Nat}
    (hinputs : p.inputs = .new track inputs) (houtputs : p.outputs = .new track outputs)
    (hfree : p.freeInputs = []) (hunits : p.pendingUnits = []) (hdeferred : p.deferred = []) :
    p.Fresh where
  inputs _ _ h := SlotTable.state?_new (hinputs ▸ h)
  outputs _ _ h := SlotTable.state?_new (houtputs ▸ h)
  freeInputs := hfree
  pendingUnits := hunits
  deferred := hdeferred

/-- A pipeline of which nothing has been asked is in order. -/
theorem Fresh.accounted {p : Pipeline} (h : p.Fresh) : p.Accounted [] := by
  refine ⟨[], ⟨rfl, List.nodup_nil, ?_, ?_, ?_⟩, ?_, ?_, ?_⟩
  · exact fun _ hi => absurd hi List.not_mem_nil
  · simp [h.deferred]
  · intro i hi
    simp [h.deferred] at hi
  · intro i hi
    cases h.outputs i _ hi
  · simp [h.freeInputs]
  · intro i hi
    simp [h.freeInputs] at hi

/-! ## Misuse -/

/-- The operation names a slot that is not where it should be, and the fault says so. -/
def Operation.Misuses (p : Pipeline) (e : Fault) : Operation → Prop
  | .inputsAvailable slots => p.inputs.Refuses slots e
  | .outputReady slot _ _ => p.outputs.state? slot ≠ some .pending ∧
      ∃ text, SlotTable.Complaint "output slot is already held" text ∧
        e = .slotMisuse p.outputs.track slot text
  | .returnOutput slot _ => p.outputs.state? slot ≠ some .holdingOutput ∧
      ∃ text, SlotTable.Complaint "output slot is not held" text ∧
        e = .slotMisuse p.outputs.track slot text
  | _ => False

/-- The misuse of a slot that is named says neither that a slot was taken back in vain, nor that one
was filled in vain. -/
theorem Operation.Misuses.named {p : Pipeline} {op : Operation} {track slot : Nat} {text : String}
    (h : op.Misuses p (.slotMisuse track slot text)) :
    text ≠ "output slot is not being returned" ∧ text ≠ "input slot not free" := by
  have htext {reason : String} (hreason : reason ≠ "output slot is not being returned" ∧
      reason ≠ "input slot not free") (hcomplaint : SlotTable.Complaint reason text) :
      text ≠ "output slot is not being returned" ∧ text ≠ "input slot not free" := by
    rcases hcomplaint with rfl | rfl
    · exact hreason
    · decide
  -- only three operations name a slot, and what they say of it is something else
  cases op with
  | inputsAvailable slots =>
    obtain ⟨before, other, after, text', -, -, hcomplaint, heq⟩ := h
    cases heq
    exact htext (by decide) hcomplaint
  | outputReady slot' pts payload =>
    obtain ⟨-, text', hcomplaint, heq⟩ := h
    cases heq
    exact htext (by decide) hcomplaint
  | returnOutput slot' kind =>
    obtain ⟨-, text', hcomplaint, heq⟩ := h
    cases heq
    exact htext (by decide) hcomplaint
  | _ => exact h.elim

/-! ## The parts of a run -/

/-- What the parts of the operations do. `J coming offered` is kept by every part, and `K` holds
where an operation is given up. The input slots in `coming` have been given but are not entered yet,
and the returns in `offered` are taken out but not offered yet. -/
structure Upholds (J : List Nat → List (Nat × ReturnKind) → Pipeline → Trace → Prop)
    (K : Pipeline → Trace → Prop) : Prop where
  fresh : ∀ p trace, p.Fresh →
    (∀ o ∈ trace, ∃ c answer, o = .called c answer ∧ ¬ c.Quiet) → J [] [] p trace
  submitted : ∀ p trace unit, J [] [] p trace →
    J [] [] { p with pendingUnits := p.pendingUnits ++ [unit] } (.submitted unit :: trace)
  dropped : ∀ p trace, J [] [] p trace →
    J [] [] { p with pendingUnits := [] } (.dropped p.pendingUnits :: trace)
  gave : ∀ p trace coming slot, p.inputs.state? slot = some .pending → slot ∉ coming →
    J coming [] p trace → J (coming ++ [slot]) [] p (.gave slot :: trace)
  entered : ∀ p trace coming slot, p.inputs.state? slot = some .pending →
    J (slot :: coming) [] p trace → J coming [] { p with
      inputs := p.inputs.put slot .free, freeInputs := p.freeInputs ++ [slot] } trace
  filled : ∀ p trace slot slots unit units, p.Front slot slots unit units →
    p.inputs.state? slot = some .free → J [] [] p trace → J [] [] { p with
      inputs := p.inputs.put slot .pending, freeInputs := slots, pendingUnits := units }
      (.called (.queueInput slot unit) (.ok ()) :: trace)
  unfilled : ∀ p trace slot unit, J [] [] p trace →
    J [] [] { p with retryNeeded := true } (.called (.queueInput slot unit) (.error .busy) :: trace)
  unfed : ∀ p trace slot unit reason, J [] [] p trace →
    K p (.called (.queueInput slot unit) (.error (.failed reason)) :: trace)
  handedOut : ∀ p trace slot, p.outputs.state? slot = some .pending → J [] [] p trace →
    J [] [] { p with outputs := p.outputs.put slot .holdingOutput } (.handedOut slot :: trace)
  givenBack : ∀ p trace slot kind, p.outputs.state? slot = some .holdingOutput →
    J [] [] p trace → J [] [(slot, kind)] { p with outputs := p.outputs.put slot .returning } trace
  takenOut : ∀ p trace, J [] [] p trace → J [] p.deferred { p with deferred := [] } trace
  taken : ∀ p trace slot kind rest, p.Accounted (slot :: rest.map (·.1)) →
    J [] ((slot, kind) :: rest) p trace →
    J [] rest { p with outputs := p.outputs.put slot .pending }
      (.called (kind.call slot) (.ok ()) :: trace)
  deferred : ∀ p trace slot kind rest, p.Accounted (slot :: rest.map (·.1)) →
    J [] ((slot, kind) :: rest) p trace →
    J [] rest { p with deferred := p.deferred ++ [(slot, kind)], retryNeeded := true }
      (.called (kind.call slot) (.error .busy) :: trace)
  refused : ∀ p trace slot kind rest reason, p.Accounted (slot :: rest.map (·.1)) →
    J [] ((slot, kind) :: rest) p trace →
    K p (.called (kind.call slot) (.error (.failed reason)) :: trace)
  noticed : ∀ p trace, J [] [] p trace → J [] [] { p with retryNeeded := false } trace
  misused : ∀ p trace, J [] [] p trace → K p trace

/-- The slots are accounted for, and `J` holds. -/
def Kept (J : List Nat → List (Nat × ReturnKind) → Pipeline → Trace → Prop) (coming : List Nat)
    (offered : List (Nat × ReturnKind)) (t : Pipeline × Traced δ) : Prop :=
  t.1.Accounted (offered.map (·.1)) ∧ J coming offered t.1 t.2.trace

/-- The slots are accounted for, and `K` holds. -/
def GivenUp (K : Pipeline → Trace → Prop) (t : Pipeline × Traced δ) : Prop :=
  t.1.Accounted [] ∧ K t.1 t.2.trace

/-- The operation keeps `J` or is given up, and misuses no slot but one that it names. -/
def Performs (J : List Nat → List (Nat × ReturnKind) → Pipeline → Trace → Prop)
    (K : Pipeline → Trace → Prop) (device : DecoderDevice δ) (op : Operation)
    (t : Pipeline × Traced δ) : Prop :=
  (op.perform device).Ends t (fun _ t' => Kept J [] [] t')
    fun e t' => GivenUp K t' ∧ (e.IsMisuse → op.Misuses t.1 e)

/-- A fault that is no misuse says nothing of the slots that an operation names. -/
theorem GivenUp.innocent {K : Pipeline → Trace → Prop} {t : Pipeline × Traced δ} {e : Fault}
    (h : GivenUp K t ∧ ¬ e.IsMisuse) (op : Operation) (p : Pipeline) :
    GivenUp K t ∧ (e.IsMisuse → op.Misuses p e) :=
  ⟨h.1, fun hmisuse => absurd hmisuse h.2⟩

theorem traced_trace {device : DecoderDevice δ} {c : DecoderCall} {t : Traced δ}
    {answer : Except DecoderError Unit} (h : (device.traced.call c t).1 = answer) :
    (device.traced.call c t).2.trace = .called c answer :: t.trace := by
  subst h
  rfl

namespace Upholds

variable {J : List Nat → List (Nat × ReturnKind) → Pipeline → Trace → Prop}
  {K : Pipeline → Trace → Prop} (hJ : Upholds J K) (device : DecoderDevice δ)
include hJ

/-- Feeding keeps `J`, and since it fills only what is free, it misuses no slot. -/
theorem feeds : Feeds device.traced (Kept J [] []) fun e t => GivenUp K t ∧ ¬ e.IsMisuse where
  filled p t slot slots unit units hfront hanswer hstate h := by
    refine ⟨h.1.fill hfront.slots units, ?_⟩
    rw [traced_trace hanswer]
    exact hJ.filled p t.trace slot slots unit units hfront hstate h.2
  busy p t slot slots unit units hfront hanswer h := by
    refine ⟨h.1.congr rfl rfl rfl rfl, ?_⟩
    rw [traced_trace hanswer]
    exact hJ.unfilled p t.trace slot unit h.2
  refused p t slot slots unit units reason hfront hanswer h := by
    refine ⟨⟨h.1, ?_⟩, id⟩
    rw [traced_trace hanswer]
    exact hJ.unfed p t.trace slot unit reason h.2
  misused p t slot slots unit units text hfront hanswer htext hother h := by
    -- the front slot is queued, so it is free
    have hfree : slot ∈ p.freeInputs := by
      rw [hfront.slots]
      exact List.mem_cons_self
    exact absurd (h.1.free_state slot hfree) hother

/-- Offering keeps `J`, and since only what is on its way back is offered, it misuses no slot. -/
theorem takesBack : TakesBack device.traced (Kept J [])
    fun e t => GivenUp K t ∧ ¬ e.IsMisuse where
  taken p t slot kind rest hanswer hstate h := by
    refine ⟨h.1.taken, ?_⟩
    rw [traced_trace hanswer]
    exact hJ.taken p t.trace slot kind rest h.1 h.2
  deferred p t slot kind rest hanswer h := by
    refine ⟨h.1.defer kind, ?_⟩
    rw [traced_trace hanswer]
    exact hJ.deferred p t.trace slot kind rest h.1 h.2
  -- the slot that was refused is forgotten, so what is left is weaker
  refused p t slot kind rest reason hanswer h := by
    refine ⟨⟨h.1.drop_offered, ?_⟩, id⟩
    rw [traced_trace hanswer]
    exact hJ.refused p t.trace slot kind rest reason h.1 h.2
  misused p t slot kind rest text hanswer htext hother h :=
    absurd (h.1.returning_state slot (by simp)) hother

theorem fillInputs {t : Pipeline × Traced δ} (h : Kept J [] [] t) :
    (Pipeline.fillInputs device.traced).Ends t (fun _ t => Kept J [] [] t)
      fun e t => GivenUp K t ∧ ¬ e.IsMisuse :=
  ((hJ.feeds device).fillInputs h).imp (fun _ _ ht => ht.1) fun _ _ ht => ht

/-- The input slots are noted one after the other, before the first of them is entered. -/
theorem gaveAll (slots coming : List Nat) {t : Pipeline × Traced δ}
    (hslots : t.1.inputs.AllIn .pending slots) (hnodup : (coming ++ slots).Nodup)
    (h : Kept J coming [] t) :
    (slots.forM fun slot => (note (.gave slot) : Step (Traced δ) Unit)).Ends t
      (fun _ t' => t'.1 = t.1 ∧ Kept J (coming ++ slots) [] t') fun _ _ => False := by
  induction slots generalizing t coming with
  | nil =>
    rw [List.append_nil]
    exact ⟨rfl, h⟩
  | cons slot slots ih =>
    obtain ⟨p, t⟩ := t
    show (note (.gave slot) >>= fun _ => slots.forM _).Ends _ _ _
    rw [ends_bind]
    -- the first slot joins those that were given before
    have hsplit : coming ++ slot :: slots = coming ++ [slot] ++ slots := by
      rw [List.append_assoc, List.singleton_append]
    rw [hsplit] at hnodup ⊢
    have hfresh : slot ∉ coming := by
      obtain ⟨-, -, hapart⟩ := List.nodup_append.mp (List.nodup_append.mp hnodup).1
      exact fun hmem => hapart slot hmem slot List.mem_cons_self rfl
    apply ih (coming ++ [slot]) (t := (p, t.note (.gave slot)))
    · exact fun i hi => hslots i (List.mem_cons_of_mem _ hi)
    · exact hnodup
    · exact ⟨h.1, hJ.gave p t.trace coming slot (hslots slot List.mem_cons_self) hfresh h.2⟩

/-- The slots that the decoder gives are entered, as far as none of them is refused. -/
theorem performs_inputsAvailable (slots : List Nat) {t : Pipeline × Traced δ}
    (h : Kept J [] [] t) : Performs J K device (.inputsAvailable slots) t := by
  obtain ⟨hpending, hnodup⟩ := SlotTable.entered_pending (t := t.1.inputs) slots
  simp only [Performs, Operation.perform, ends_bind, ends_get]
  refine (hJ.gaveAll (t.1.inputs.entered slots) [] hpending hnodup h).imp ?_ fun _ _ he => he.elim
  rintro _ ⟨p', t'⟩ ⟨rfl, hgiven⟩
  simp only [Pipeline.inputsAvailable, ends_bind]
  -- entering takes the slots in the order in which they were noted
  have hentered := ends_enterAll (J := fun coming t => Kept J coming [] t) (d := t')
    (fun p t slot coming hstate ht =>
      ⟨ht.1.enter hstate, hJ.entered p t.trace coming slot hstate ht.2⟩) slots hgiven
  refine hentered.imp ?_ ?_
  · intro _ t ht
    exact (hJ.fillInputs device ht).imp (fun _ _ ht => ht) fun _ _ he => GivenUp.innocent he _ _
  · intro e t he
    exact ⟨⟨he.1.1, hJ.misused t.1 t.2.trace he.1.2⟩, fun _ => he.2⟩

/-- An output is handed out, or its slot is not with the decoder. -/
theorem performs_outputReady (slot : Nat) (pts : Int) (payload : List UInt8)
    {t : Pipeline × Traced δ} (h : Kept J [] [] t) :
    Performs J K device (.outputReady slot pts payload) t := by
  obtain ⟨p, t⟩ := t
  simp only [Performs, Operation.perform, Pipeline.outputReady, ends_bind, ends_pure]
  apply ends_moveOutput_complaint
  · intro hstate
    exact ⟨h.1.handOut hstate, hJ.handedOut p t.trace slot hstate h.2⟩
  · intro text htext hstate
    exact ⟨⟨h.1, hJ.misused p t.trace h.2⟩, fun _ => ⟨hstate, text, htext, rfl⟩⟩

/-- A slot is given back and offered, or it is not held. -/
theorem performs_returnOutput (slot : Nat) (kind : ReturnKind) {t : Pipeline × Traced δ}
    (h : Kept J [] [] t) : Performs J K device (.returnOutput slot kind) t := by
  obtain ⟨p, t⟩ := t
  simp only [Performs, Operation.perform, Pipeline.returnOutput, ends_bind]
  apply ends_moveOutput_complaint
  · intro hstate
    -- the slot is on its way back before the decoder is asked
    have hback : Kept J [] [(slot, kind)]
        ({ p with outputs := p.outputs.put slot .returning }, t) :=
      ⟨h.1.giveBack hstate, hJ.givenBack p t.trace slot kind hstate h.2⟩
    exact ((hJ.takesBack device).finishReturn slot kind [] hback).imp (fun _ _ ht => ht)
      fun _ _ he => GivenUp.innocent he _ _
  · intro text htext hstate
    exact ⟨⟨h.1, hJ.misused p t.trace h.2⟩, fun _ => ⟨hstate, text, htext, rfl⟩⟩

/-- All that is deferred is taken out, and offered again before the decoder is fed. -/
theorem performs_retry {t : Pipeline × Traced δ} (h : Kept J [] [] t) :
    Performs J K device .retry t := by
  obtain ⟨p, t⟩ := t
  have hout : Kept J [] (p.deferred.map fun entry => (entry.1, id entry.2))
      ({ p with deferred := [] }, t) := by
    simp only [id, List.map_id']
    exact ⟨h.1.takeOut, hJ.takenOut p t.trace h.2⟩
  simp only [Performs, Operation.perform, Pipeline.retry, ends_bind]
  refine ((hJ.takesBack device).retryReturns id hout).imp ?_ fun _ _ he => GivenUp.innocent he _ _
  intro _ t ht
  exact (hJ.fillInputs device ht).imp (fun _ _ ht => ht) fun _ _ he => GivenUp.innocent he _ _

/-- Every operation keeps `J`, a teardown aside, and misuses no slot but one that it names. -/
theorem perform {op : Operation} (hop : op ≠ .teardown) {t : Pipeline × Traced δ}
    (h : Kept J [] [] t) : Performs J K device op t := by
  cases op with
  | submit unit => -- a unit and its note come together, and then the inputs are filled
    have hsubmitted : Kept J [] [] ({ t.1 with pendingUnits := t.1.pendingUnits ++ [unit] },
        t.2.note (.submitted unit)) :=
      ⟨h.1.congr rfl rfl rfl rfl, hJ.submitted t.1 t.2.trace unit h.2⟩
    exact (hJ.fillInputs device hsubmitted).imp (fun _ _ ht => ht)
      fun _ _ he => GivenUp.innocent he _ _
  | inputsAvailable slots => exact hJ.performs_inputsAvailable device slots h
  | outputReady slot pts payload => exact hJ.performs_outputReady device slot pts payload h
  | returnOutput slot kind => exact hJ.performs_returnOutput device slot kind h
  | retry => exact hJ.performs_retry device h
  | takeRetry => exact ⟨h.1.congr rfl rfl rfl rfl, hJ.noticed t.1 t.2.trace h.2⟩
  | flush => exact ⟨h.1.congr rfl rfl rfl rfl, hJ.dropped t.1 t.2.trace h.2⟩
  | teardown => exact absurd rfl hop

end Upholds

/-! ## Teardown -/

/-- Nothing waits in the queues any more, and the slots are where they were. -/
structure Emptied (p p' : Pipeline) : Prop where
  inputs : p'.inputs = p.inputs
  outputs : p'.outputs = p.outputs
  freeInputs : p'.freeInputs = []
  deferred : p'.deferred = []

/-- `J` is kept by every operation, whether it ends well or not. A teardown may offer what is
deferred with another kind, and empties the queues before it tells the decoder to stop and to free
everything. -/
structure Endures (J : List Nat → List (Nat × ReturnKind) → Pipeline → Trace → Prop) : Prop
    extends Upholds J (J [] []) where
  released : ∀ p trace offered, J [] offered p trace →
    J [] (offered.map fun entry => (entry.1, .release)) p trace
  emptied : ∀ p p' trace c answer, c = .stop ∨ c = .release → J [] [] p trace → p.Emptied p' →
    J [] [] p' (.called c answer :: trace)

/-- Only the slot that is given back changes its owner. -/
theorem returnOutput_others {device : DecoderDevice δ} (slot : Nat) (kind : ReturnKind)
    (t : Pipeline × δ) :
    (returnOutput device slot kind).Ends t
      (fun _ t' => ∀ i ≠ slot, t'.1.outputs.state? i = t.1.outputs.state? i) fun _ _ => True := by
  obtain ⟨p, d⟩ := t
  simp only [returnOutput, ends_bind]
  apply ends_moveOutput_or
  · intro _
    apply ends_finishReturn
    -- taken or put off, only `slot` has been put somewhere else
    · intro _ _ i hi
      rw [SlotTable.state?_put_of_ne hi]
      exact SlotTable.state?_put_of_ne hi p.outputs _
    · intro _ i hi
      exact SlotTable.state?_put_of_ne hi p.outputs _
    · exact fun _ _ => trivial
    · exact fun _ _ _ _ => trivial
  · exact fun _ => trivial

namespace Endures

variable {J : List Nat → List (Nat × ReturnKind) → Pipeline → Trace → Prop} (hJ : Endures J)
  (device : DecoderDevice δ)
include hJ

/-- A teardown gives back all that is held, and misuses nothing. -/
theorem teardown {t : Pipeline × Traced δ} (h : Kept J [] [] t) :
    (Pipeline.teardown device.traced).Ends t (fun _ t => Kept J [] [] t)
      fun e t => GivenUp (J [] []) t ∧ ¬ e.IsMisuse := by
  obtain ⟨p, t⟩ := t
  simp only [Pipeline.teardown, ends_bind, ends_get]
  -- every slot that is held is given back once, so that none of them is misused
  refine (ends_forM (I := fun rest t => rest.Nodup ∧ t.1.outputs.AllIn .holdingOutput rest ∧
    Kept J [] [] t) (E := fun e t => GivenUp (J [] []) t ∧ ¬ e.IsMisuse) ?_
    (p.outputs.slotsIn .holdingOutput)
    ⟨SlotTable.slotsIn_nodup _ _, SlotTable.slotsIn_allIn _ _, h⟩).imp ?_ fun _ _ he => he
  · intro slot rest t ht
    obtain ⟨hnodup, hheld, hkept⟩ := ht
    obtain ⟨hfresh, hrest⟩ := List.nodup_cons.mp hnodup
    have hslot := hheld slot List.mem_cons_self
    refine ((hJ.performs_returnOutput device slot .release hkept).and
      (returnOutput_others slot .release t)).imp ?_ ?_
    · intro _ t' ht'
      refine ⟨hrest, fun i hi => ?_, ht'.1⟩
      rw [ht'.2 i (ne_of_mem_of_not_mem hi hfresh)]
      exact hheld i (List.mem_cons_of_mem _ hi)
    · intro e t' he
      exact ⟨he.1.1, fun hmisuse => (he.1.2 hmisuse).1 hslot⟩
  rintro _ ⟨p', t'⟩ ⟨-, -, hkept⟩
  have hout : Kept J [] (p'.deferred.map fun entry => (entry.1, ReturnKind.release))
      ({ p' with deferred := [] }, t') := by
    refine ⟨?_, hJ.released _ _ _ (hJ.takenOut p' t'.trace hkept.2)⟩
    simpa [Function.comp_def] using hkept.1.takeOut
  refine ((hJ.takesBack device).retryReturns (fun _ => .release) hout).imp ?_ fun _ _ he => he
  rintro _ ⟨p'', t''⟩ ⟨haccounted, hback⟩
  simp only [ends_update, ends_bind, ends_ite, ends_pure, ends_tell]
  split
  · have hempty : p''.Emptied { p'' with
        deferred := [], retryNeeded := false, pendingUnits := [], freeInputs := []
        started := false } := ⟨rfl, rfl, rfl, rfl⟩
    apply ends_demand
    · intro _
      refine ⟨haccounted.clear rfl rfl rfl, ?_⟩
      exact hJ.emptied _ _ _ _ _ (Or.inr rfl)
        (hJ.emptied _ _ t''.trace _ _ (Or.inl rfl) hback hempty) ⟨rfl, rfl, rfl, rfl⟩
    · intro e _
      refine ⟨⟨haccounted.clear rfl rfl rfl, ?_⟩, id⟩
      exact hJ.emptied _ _ t''.trace _ _ (Or.inl rfl) hback hempty
  · refine ⟨haccounted.clear rfl rfl rfl, ?_⟩
    exact hJ.emptied p'' _ t''.trace _ _ (Or.inr rfl) hback ⟨rfl, rfl, rfl, rfl⟩

theorem perform (op : Operation) {t : Pipeline × Traced δ} (h : Kept J [] [] t) :
    Performs J (J [] []) device op t := by
  by_cases hop : op = .teardown
  · subst hop
    exact (hJ.teardown device h).imp (fun _ _ ht => ht) fun _ _ he => GivenUp.innocent he _ _
  · exact hJ.toUpholds.perform device hop h

end Endures

/-! ## Runs -/

/-- After its configuration a pipeline is fresh, and the decoder has only been configured and
started. -/
theorem configured_fresh (device : DecoderDevice δ) (format : MediaFormat) (onSurface : Bool)
    (track : Nat) (d : δ) :
    let t := configured device format onSurface track d
    t.1.Fresh ∧ ∀ o ∈ t.2.trace, ∃ c answer, o = .called c answer ∧ ¬ c.Quiet := by
  have hempty : ({ track } : Pipeline).Fresh := .ofNew rfl rfl rfl rfl rfl
  have hcalled {c : DecoderCall} {t : Traced δ} (hc : ¬ c.Quiet)
      (ht : ∀ o ∈ t.trace, ∃ c answer, o = .called c answer ∧ ¬ c.Quiet) :
      ∀ o ∈ (device.traced.call c t).2.trace, ∃ c answer, o = .called c answer ∧ ¬ c.Quiet := by
    intro o ho
    rcases List.mem_cons.mp ho with rfl | ho
    · exact ⟨c, _, rfl, hc⟩
    · exact ht o ho
  have hnone : ∀ o ∈ (⟨d, []⟩ : Traced δ).trace, ∃ c answer, o = .called c answer ∧ ¬ c.Quiet :=
    fun _ ho => absurd ho List.not_mem_nil
  apply Ends.stateAfter (I := fun t : Pipeline × Traced δ =>
    t.1.Fresh ∧ ∀ o ∈ t.2.trace, ∃ c answer, o = .called c answer ∧ ¬ c.Quiet)
  apply ends_configure
  -- both calls are accepted, or the first or the second one is refused
  · intro t' ht'
    rw [ht']
    refine ⟨.ofNew rfl rfl rfl rfl rfl, ?_⟩
    exact hcalled id (hcalled id hnone)
  · exact fun e => ⟨hempty, hcalled id hnone⟩
  · exact fun e => ⟨hempty, hcalled id (hcalled id hnone)⟩

/-- What one operation keeps, a run keeps. -/
theorem performAll_induction {device : DecoderDevice δ} {I : Pipeline × Traced δ → Prop}
    {ops : List Operation} (step : ∀ op ∈ ops, (op.perform device).Keeps I)
    {t : Pipeline × Traced δ} (h : I t) : I (performAll device ops t) := by
  induction ops generalizing t with
  | nil => exact h
  | cons op ops ih =>
    rw [performAll, List.foldl_cons]
    apply ih
    · exact fun op hop => step op (List.mem_cons_of_mem _ hop)
    · exact (step op List.mem_cons_self t h).stateAfter

section Runs

variable {J : List Nat → List (Nat × ReturnKind) → Pipeline → Trace → Prop}
  {device : DecoderDevice δ} {format : MediaFormat} {onSurface : Bool} {track : Nat} {d : δ}
  {ops : List Operation}

/-- So what the parts keep holds after the configuration. -/
theorem Upholds.configured {K : Pipeline → Trace → Prop} (hJ : Upholds J K) :
    Kept J [] [] (configured device format onSurface track d) := by
  obtain ⟨hfresh, htrace⟩ := configured_fresh device format onSurface track d
  exact ⟨hfresh.accounted, hJ.fresh _ _ hfresh htrace⟩

/-- What is kept even by an operation that fails is kept by a run without a teardown. -/
theorem Upholds.performAll (hJ : Upholds J (J [] [])) (hops : .teardown ∉ ops) :
    Kept J [] [] (performAll device ops (Pipeline.configured device format onSurface track d)) := by
  apply performAll_induction _ hJ.configured
  intro op hop t ht
  have hne : op ≠ .teardown := fun heq => hops (heq ▸ hop)
  exact (hJ.perform device hne ht).imp (fun _ _ ht => ht) fun _ _ he => he.1

/-- What is kept by every operation that ends well is kept as long as none fails. -/
theorem Upholds.performAll_ok {K : Pipeline → Trace → Prop} (hJ : Upholds J K)
    (hops : .teardown ∉ ops) :
    (ops.forM (Operation.perform device)).Ends
      (Pipeline.configured device format onSurface track d) (fun _ t => Kept J [] [] t)
      fun _ _ => True := by
  refine (ends_forM (I := fun rest t => .teardown ∉ rest ∧ Kept J [] [] t) (E := fun _ _ => True)
    ?_ ops ⟨hops, hJ.configured⟩).imp (fun _ _ ht => ht.2) fun _ _ _ => trivial
  intro op rest t ht
  have hne : op ≠ .teardown := fun heq => ht.1 (heq ▸ List.mem_cons_self)
  refine (hJ.perform device hne ht.2).imp (fun _ t' ht' => ⟨?_, ht'⟩) fun _ _ _ => trivial
  exact fun hmem => ht.1 (List.mem_cons_of_mem _ hmem)

end Runs

end Pipeline

end Playout
