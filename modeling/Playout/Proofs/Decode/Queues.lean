import Playout.Proofs.Decode.Upkeep

/-!
# What waits in the queues of a pipeline

Two queues go with the two slot tables: the free input slots, and the returns that the decoder put
off. `Reached` is every state of a pipeline that is asked for anything, in any order and whatever
its decoder answers, operations after a teardown and further configurations among it. In all of them

    freeInputs = slots that are free, but for those that a teardown has forgotten
    deferred   = slots on their way back, but for those that a teardown has forgotten, those that
                 the decoder refused, and those behind one that it refused

and no slot is queued twice. Which slots these are is read off the trace.
-/

namespace Playout

/-- Where a slot is, by what happened to it last. -/
inductive Whereabouts where
  /-- With the decoder, or with a renderer -/
  | away
  /-- A free input slot, or a return that the decoder put off -/
  | waiting
  /-- The decoder refused its return. -/
  | refused
  /-- The decoder was told to stop, or to free everything. -/
  | forgotten
deriving DecidableEq

/-- Where a slot is whose return was offered. -/
def Whereabouts.ofAnswer : Except DecoderError Unit → Whereabouts
  | .ok () => .away
  | .error .busy => .waiting
  | .error (.failed _) => .refused

namespace Occurrence

/-- Where an input slot is from now on. -/
def input? (slot : Nat) : Occurrence → Option Whereabouts
  | .gave s => if s = slot then some .waiting else none
  | .called (.queueInput s _) (.ok ()) => if s = slot then some .away else none
  | .called .stop _ | .called .release _ => some .forgotten
  | _ => none

/-- Where an output slot is from now on. -/
def output? (slot : Nat) : Occurrence → Option Whereabouts
  | .handedOut s => if s = slot then some .away else none
  | .called .stop _ | .called .release _ => some .forgotten
  | .called c answer =>
    if c.return?.map (·.1) = some slot then some (.ofAnswer answer) else none
  | _ => none

end Occurrence

namespace Trace

/-- Where an input slot is. -/
def inputNow (trace : Trace) (slot : Nat) : Whereabouts :=
  (trace.findSome? (·.input? slot)).getD .away

/-- Where an output slot is. -/
def outputNow (trace : Trace) (slot : Nat) : Whereabouts :=
  (trace.findSome? (·.output? slot)).getD .away

/-- Since anything happened to the slot, the decoder refused another one that it had put off. -/
def CutShort (slot : Nat) : Trace → Prop
  | [] => False
  | o :: trace => o.output? slot = none ∧ (CutShort slot trace ∨
      ∃ other, o.output? other = some .refused ∧ outputNow trace other = .waiting)

/-- Why a slot on its way back need not be queued. -/
def Dropped (trace : Trace) (slot : Nat) : Prop :=
  trace.outputNow slot = .refused ∨ trace.outputNow slot = .forgotten ∨ trace.CutShort slot

variable {o : Occurrence} {slot : Nat}

theorem inputNow_cons (o : Occurrence) (trace : Trace) (slot : Nat) :
    inputNow (o :: trace) slot = (o.input? slot).getD (trace.inputNow slot) := by
  cases h : o.input? slot <;> simp [inputNow, h]

theorem outputNow_cons (o : Occurrence) (trace : Trace) (slot : Nat) :
    outputNow (o :: trace) slot = (o.output? slot).getD (trace.outputNow slot) := by
  cases h : o.output? slot <;> simp [outputNow, h]

/-- What happens to other slots brings no slot back into the queue. -/
theorem Dropped.cons {trace : Trace} (h : trace.Dropped slot) (ho : o.output? slot = none) :
    Dropped (o :: trace) slot := by
  unfold Dropped
  rw [outputNow_cons, ho]
  exact h.imp_right (Or.imp_right fun hcut => ⟨ho, Or.inl hcut⟩)

end Trace

theorem Occurrence.output?_return (kind : ReturnKind) (slot i : Nat)
    (answer : Except DecoderError Unit) :
    (Occurrence.called (kind.call slot) answer).output? i =
      if slot = i then some (.ofAnswer answer) else none := by
  cases kind <;> simp [Occurrence.output?, ReturnKind.call, DecoderCall.return?]

namespace Pipeline

open Playout.Action

variable {δ : Type} {p p' : Pipeline} {trace : Trace} {slot : Nat}

/-! ## Free input slots -/

/-- The free input slots are queued, but for those that a teardown has forgotten. Those in `coming`
have been given but are not entered yet. -/
structure InputsQueued (coming : List Nat) (p : Pipeline) (trace : Trace) : Prop where
  coming : ∀ slot ∈ coming, trace.inputNow slot = .waiting
  nodup : p.freeInputs.Nodup
  queued : ∀ slot ∈ p.freeInputs,
    p.inputs.state? slot = some .free ∧ trace.inputNow slot = .waiting
  all : ∀ slot, p.inputs.state? slot = some .free →
    slot ∈ p.freeInputs ∨ trace.inputNow slot = .forgotten

namespace InputsQueued

variable {coming : List Nat}

theorem congr (h : InputsQueued coming p trace) (hinputs : p'.inputs = p.inputs)
    (hfree : p'.freeInputs = p.freeInputs) : InputsQueued coming p' trace where
  coming := h.coming
  nodup := by rw [hfree]; exact h.nodup
  queued := by rw [hfree, hinputs]; exact h.queued
  all := by rw [hfree, hinputs]; exact h.all

/-- What happens to no input slot changes nothing. -/
theorem quiet (h : InputsQueued coming p trace) {o : Occurrence}
    (ho : ∀ slot, o.input? slot = none) : InputsQueued coming p (o :: trace) where
  coming i := by rw [Trace.inputNow_cons, ho]; exact h.coming i
  nodup := h.nodup
  queued i := by rw [Trace.inputNow_cons, ho]; exact h.queued i
  all i := by rw [Trace.inputNow_cons, ho]; exact h.all i

/-- A return that is offered does not concern the input slots. -/
theorem offered (h : InputsQueued coming p trace) (kind : ReturnKind) (slot : Nat)
    (answer : Except DecoderError Unit) :
    InputsQueued coming p (.called (kind.call slot) answer :: trace) :=
  h.quiet fun _ => by cases kind <;> rfl

/-- The decoder gives a slot that it owns. -/
theorem give (h : InputsQueued coming p trace) (hslot : p.inputs.state? slot = some .pending) :
    InputsQueued (coming ++ [slot]) p (.gave slot :: trace) := by
  -- a slot that was given waits from now on, and the others that waited do so still
  have hgiven {i : Nat} (hi : i = slot ∨ trace.inputNow i = .waiting) :
      Trace.inputNow (.gave slot :: trace) i = .waiting := by
    rw [Trace.inputNow_cons, Occurrence.input?]
    split
    · rfl
    · next hne => exact hi.resolve_left (Ne.symm hne)
  refine ⟨fun i hi => hgiven ?_, h.nodup, fun i hi => ?_, fun i hi => ?_⟩
  · rcases List.mem_append.mp hi with hi | hi
    · exact Or.inr (h.coming i hi)
    · exact Or.inl (List.mem_singleton.mp hi)
  · exact ⟨(h.queued i hi).1, hgiven (Or.inr (h.queued i hi).2)⟩
  · have hne : slot ≠ i := by
      rintro rfl
      rw [hslot] at hi
      cases hi
    rw [Trace.inputNow_cons, Occurrence.input?, if_neg hne]
    exact h.all i hi

/-- The first slot that was given is entered. -/
theorem enter (h : InputsQueued (slot :: coming) p trace)
    (hslot : p.inputs.state? slot = some .pending) :
    InputsQueued coming { p with
      inputs := p.inputs.put slot .free, freeInputs := p.freeInputs ++ [slot] } trace := by
  -- a slot that is pending is not queued
  have hfresh : slot ∉ p.freeInputs := by
    intro hmem
    have hfree := (h.queued slot hmem).1
    rw [hslot] at hfree
    cases hfree
  refine ⟨fun i hi => h.coming i (List.mem_cons_of_mem _ hi), ?_, fun i hi => ?_, fun i hi => ?_⟩
  · exact List.nodup_append.mpr ⟨h.nodup, by simp, by grind⟩
  · rcases List.mem_append.mp hi with hi | hi
    · rw [SlotTable.state?_put_of_ne (ne_of_mem_of_not_mem hi hfresh)]
      exact h.queued i hi
    · cases List.mem_singleton.mp hi
      exact ⟨SlotTable.state?_put_self hslot _, h.coming slot List.mem_cons_self⟩
  · by_cases heq : i = slot
    · exact Or.inl (heq ▸ by simp)
    · rw [SlotTable.state?_put_of_ne heq] at hi
      exact (h.all i hi).imp_left (List.mem_append_left _)

/-- A unit goes into the front slot. -/
theorem fill {slots : List Nat} {unit : AccessUnit} (h : InputsQueued [] p trace)
    (hfront : p.freeInputs = slot :: slots) (units : List AccessUnit) :
    InputsQueued [] { p with
      inputs := p.inputs.put slot .pending, freeInputs := slots, pendingUnits := units }
      (.called (.queueInput slot unit) (.ok ()) :: trace) := by
  have hnodup := h.nodup
  rw [hfront] at hnodup
  obtain ⟨hfresh, hslots⟩ := List.nodup_cons.mp hnodup
  have hslot := (h.queued slot (hfront ▸ List.mem_cons_self)).1
  -- only the front slot is told about
  have hother {i : Nat} (hi : i ≠ slot) :
      Trace.inputNow (.called (.queueInput slot unit) (.ok ()) :: trace) i = trace.inputNow i := by
    rw [Trace.inputNow_cons, Occurrence.input?, if_neg (Ne.symm hi)]
    rfl
  refine ⟨fun _ hi => absurd hi List.not_mem_nil, hslots, fun i hi => ?_, fun i hi => ?_⟩
  · have hne := ne_of_mem_of_not_mem hi hfresh
    rw [SlotTable.state?_put_of_ne hne, hother hne]
    exact h.queued i (hfront ▸ List.mem_cons_of_mem _ hi)
  · have hne : i ≠ slot := by
      rintro rfl
      rw [SlotTable.state?_put_self hslot] at hi
      cases hi
    rw [SlotTable.state?_put_of_ne hne] at hi
    rw [hother hne]
    have hmem := h.all i hi
    rw [hfront] at hmem
    exact hmem.imp_left fun hmem => (List.mem_cons.mp hmem).resolve_left hne

/-- A unit is not taken. -/
theorem unfill (h : InputsQueued coming p trace) (slot : Nat) (unit : AccessUnit)
    (e : DecoderError) :
    InputsQueued coming p (.called (.queueInput slot unit) (.error e) :: trace) :=
  h.quiet fun _ => rfl

/-- Nothing waits, and nothing is free. -/
theorem renewed (h : ({ p with pendingUnits := [] } : Pipeline).Fresh) (trace : Trace) :
    InputsQueued [] p trace where
  coming _ hi := absurd hi List.not_mem_nil
  nodup := by simp [show p.freeInputs = [] from h.freeInputs]
  queued := by simp [show p.freeInputs = [] from h.freeInputs]
  all i hi := by cases h.inputs i _ hi

/-- The decoder is told to stop, or to free everything, and nothing waits. -/
theorem forget (hfree : p.freeInputs = []) {c : DecoderCall} (hc : c = .stop ∨ c = .release)
    (answer : Except DecoderError Unit) : InputsQueued [] p (.called c answer :: trace) where
  coming _ hi := absurd hi List.not_mem_nil
  nodup := by simp [hfree]
  queued := by simp [hfree]
  all i _ := by
    rw [Trace.inputNow_cons]
    rcases hc with rfl | rfl <;> exact Or.inr rfl

end InputsQueued

/-- Every operation keeps it, a teardown too. -/
theorem endures_inputsQueued : Endures fun coming _ => InputsQueued coming where
  fresh p _ hp _ := .renewed (p := p) ⟨hp.inputs, hp.outputs, hp.freeInputs, rfl, hp.deferred⟩ _
  submitted _ _ _ h := (h.quiet fun _ => rfl).congr rfl rfl
  dropped _ _ h := (h.quiet fun _ => rfl).congr rfl rfl
  gave _ _ _ _ hslot _ h := h.give hslot
  entered _ _ _ _ hslot h := h.enter hslot
  filled _ _ _ _ _ units hfront _ h := h.fill hfront.slots units
  unfilled _ _ _ _ h := (h.unfill _ _ _).congr rfl rfl
  unfed _ _ _ _ _ h := h.unfill _ _ _
  handedOut _ _ _ _ h := (h.quiet fun _ => rfl).congr rfl rfl
  givenBack _ _ _ _ _ h := h.congr rfl rfl
  takenOut _ _ h := h.congr rfl rfl
  taken _ _ slot kind _ _ h := (h.offered kind slot _).congr rfl rfl
  deferred _ _ slot kind _ _ h := (h.offered kind slot _).congr rfl rfl
  refused _ _ slot kind _ _ _ h := h.offered kind slot _
  noticed _ _ h := h.congr rfl rfl
  misused _ _ h := h
  released _ _ _ h := h
  emptied _ _ _ _ answer hc _ hempty := .forget hempty.freeInputs hc answer

/-! ## Deferred returns -/

/-- The deferred returns are queued, but for those that were dropped. Those in `offered` are taken
out but not offered yet: one that a renderer has given back, or those that the decoder put off. -/
structure ReturnsQueued (offered : List (Nat × ReturnKind)) (p : Pipeline) (trace : Trace) :
    Prop where
  again : 1 < offered.length → ∀ entry ∈ offered, trace.outputNow entry.1 = .waiting
  queued : ∀ slot ∈ p.deferred.map (·.1),
    p.outputs.state? slot = some .returning ∧ trace.outputNow slot = .waiting
  all : ∀ slot, p.outputs.state? slot = some .returning →
    slot ∈ (offered ++ p.deferred).map (·.1) ∨ trace.Dropped slot

namespace ReturnsQueued

variable {offered rest : List (Nat × ReturnKind)} {kind : ReturnKind}

theorem congr (h : ReturnsQueued offered p trace) (houtputs : p'.outputs = p.outputs)
    (hdeferred : p'.deferred = p.deferred) : ReturnsQueued offered p' trace where
  again := h.again
  queued := by rw [houtputs, hdeferred]; exact h.queued
  all := by rw [houtputs, hdeferred]; exact h.all

/-- What happens to no output slot changes nothing. -/
theorem quiet (h : ReturnsQueued offered p trace) {o : Occurrence}
    (ho : ∀ slot, o.output? slot = none) : ReturnsQueued offered p (o :: trace) where
  again hmany entry := by rw [Trace.outputNow_cons, ho]; exact h.again hmany entry
  queued i := by rw [Trace.outputNow_cons, ho]; exact h.queued i
  all i hi := (h.all i hi).imp_right fun hdropped => hdropped.cons (ho i)

/-- A slot with the decoder, or with a renderer, is not queued. -/
theorem not_queued {s : SlotState} (h : ReturnsQueued offered p trace)
    (hslot : p.outputs.state? slot = some s) (hs : s ≠ .returning) :
    slot ∉ p.deferred.map (·.1) := by
  intro hmem
  have hreturning := (h.queued slot hmem).1
  rw [hslot] at hreturning
  exact hs (Option.some.inj hreturning)

/-- A slot is not on its way back any more, or it never was. -/
theorem ne_of_put {s : SlotState} {i : Nat} (hslot : p.outputs.state? slot = some s)
    {s' : SlotState} (hs : s' ≠ .returning)
    (hi : (p.outputs.put slot s').state? i = some .returning) : i ≠ slot := by
  rintro rfl
  rw [SlotTable.state?_put_self hslot] at hi
  exact hs (Option.some.inj hi)

/-- The decoder hands a slot out. -/
theorem handOut (h : ReturnsQueued [] p trace) (hslot : p.outputs.state? slot = some .pending) :
    ReturnsQueued [] { p with outputs := p.outputs.put slot .holdingOutput }
      (.handedOut slot :: trace) := by
  -- the new event is about this slot alone
  have hother {i : Nat} (hi : i ≠ slot) : (Occurrence.handedOut slot).output? i = none := by
    rw [Occurrence.output?, if_neg (Ne.symm hi)]
  refine ⟨fun hmany => absurd hmany (by simp), fun i hi => ?_, fun i hi => ?_⟩
  · have hne : i ≠ slot := ne_of_mem_of_not_mem hi (h.not_queued hslot (by decide))
    rw [SlotTable.state?_put_of_ne hne, Trace.outputNow_cons, hother hne]
    exact h.queued i hi
  · have hne : i ≠ slot := ne_of_put hslot (by decide) hi
    rw [SlotTable.state?_put_of_ne hne] at hi
    exact (h.all i hi).imp_right fun hdropped => hdropped.cons (hother hne)

/-- A held slot starts on its way back. -/
theorem giveBack (h : ReturnsQueued [] p trace)
    (hslot : p.outputs.state? slot = some .holdingOutput) (kind : ReturnKind) :
    ReturnsQueued [(slot, kind)] { p with outputs := p.outputs.put slot .returning } trace := by
  refine ⟨fun hmany => absurd hmany (by simp), fun i hi => ?_, fun i hi => ?_⟩
  · have hne : i ≠ slot := ne_of_mem_of_not_mem hi (h.not_queued hslot (by decide))
    rw [SlotTable.state?_put_of_ne hne]
    exact h.queued i hi
  · by_cases heq : i = slot
    · exact Or.inl (heq ▸ List.mem_cons_self)
    · rw [SlotTable.state?_put_of_ne heq] at hi
      exact (h.all i hi).imp_left (List.mem_cons_of_mem _)

/-- All that is deferred is taken out. -/
theorem takeOut (h : ReturnsQueued [] p trace) :
    ReturnsQueued p.deferred { p with deferred := [] } trace where
  again _ entry hentry := (h.queued entry.1 (List.mem_map_of_mem hentry)).2
  queued _ hi := absurd hi List.not_mem_nil
  all i hi := by simpa using h.all i hi

/-- An offer is about no other slot. -/
theorem output?_other {i : Nat} (hi : i ≠ slot) (kind : ReturnKind)
    (answer : Except DecoderError Unit) :
    (Occurrence.called (kind.call slot) answer).output? i = none := by
  rw [Occurrence.output?_return, if_neg (Ne.symm hi)]

theorem outputNow_offered (kind : ReturnKind) (answer : Except DecoderError Unit) :
    Trace.outputNow (.called (kind.call slot) answer :: trace) slot = .ofAnswer answer := by
  rw [Trace.outputNow_cons, Occurrence.output?_return, if_pos rfl]
  rfl

/-- The slot that is offered is none of the others on their way back. -/
theorem ne_offered (hslots : p.Accounted (slot :: rest.map (·.1))) {i : Nat}
    (hi : i ∈ (rest ++ p.deferred).map (·.1)) : i ≠ slot := by
  have hnodup : (slot :: (rest ++ p.deferred).map (·.1)).Nodup := by
    simpa using hslots.returning_nodup
  exact ne_of_mem_of_not_mem hi (List.nodup_cons.mp hnodup).1

/-- The others that are to be offered are waiting still. -/
theorem again_others (h : ReturnsQueued ((slot, kind) :: rest) p trace)
    (hslots : p.Accounted (slot :: rest.map (·.1))) (answer : Except DecoderError Unit)
    {entry : Nat × ReturnKind} (hentry : entry ∈ rest) :
    Trace.outputNow (.called (kind.call slot) answer :: trace) entry.1 = .waiting := by
  have hmem : entry.1 ∈ (rest ++ p.deferred).map (·.1) :=
    List.mem_map_of_mem (List.mem_append_left _ hentry)
  rw [Trace.outputNow_cons, output?_other (ne_offered hslots hmem)]
  refine h.again ?_ entry (List.mem_cons_of_mem _ hentry)
  have := List.length_pos_of_mem hentry
  rw [List.length_cons]
  omega

/-- The others that are queued are waiting still. -/
theorem queued_others (h : ReturnsQueued ((slot, kind) :: rest) p trace)
    (hslots : p.Accounted (slot :: rest.map (·.1))) (answer : Except DecoderError Unit) {i : Nat}
    (hi : i ∈ p.deferred.map (·.1)) : i ≠ slot ∧ p.outputs.state? i = some .returning ∧
      Trace.outputNow (.called (kind.call slot) answer :: trace) i = .waiting := by
  have hmem : i ∈ (rest ++ p.deferred).map (·.1) := by
    rw [List.map_append]
    exact List.mem_append_right _ hi
  have hne : i ≠ slot := ne_offered hslots hmem
  rw [Trace.outputNow_cons, output?_other hne]
  exact ⟨hne, h.queued i hi⟩

/-- The others on their way back are queued or dropped, as before. -/
theorem all_others (h : ReturnsQueued ((slot, kind) :: rest) p trace)
    (answer : Except DecoderError Unit) {i : Nat} (hne : i ≠ slot)
    (hi : p.outputs.state? i = some .returning) :
    i ∈ (rest ++ p.deferred).map (·.1) ∨
      Trace.Dropped (.called (kind.call slot) answer :: trace) i :=
  (h.all i hi).imp (fun hmem => (List.mem_cons.mp hmem).resolve_left hne)
    fun hdropped => hdropped.cons (output?_other hne kind answer)

/-- The decoder takes the slot back. -/
theorem taken (h : ReturnsQueued ((slot, kind) :: rest) p trace)
    (hslots : p.Accounted (slot :: rest.map (·.1))) :
    ReturnsQueued rest { p with outputs := p.outputs.put slot .pending }
      (.called (kind.call slot) (.ok ()) :: trace) := by
  have hslot : p.outputs.state? slot = some .returning :=
    hslots.returning_state slot List.mem_cons_self
  refine ⟨fun _ entry hentry => h.again_others hslots _ hentry, fun i hi => ?_, fun i hi => ?_⟩
  -- the other slots on their way back are still queued
  · obtain ⟨hne, hqueued⟩ := h.queued_others hslots (.ok ()) hi
    rw [SlotTable.state?_put_of_ne hne]
    exact hqueued
  · have hne : i ≠ slot := ne_of_put hslot (by decide) hi
    rw [SlotTable.state?_put_of_ne hne] at hi
    exact h.all_others _ hne hi

/-- The decoder puts the slot off. -/
theorem defer (h : ReturnsQueued ((slot, kind) :: rest) p trace)
    (hslots : p.Accounted (slot :: rest.map (·.1))) :
    ReturnsQueued rest { p with deferred := p.deferred ++ [(slot, kind)], retryNeeded := true }
      (.called (kind.call slot) (.error .busy) :: trace) := by
  have hslot : p.outputs.state? slot = some .returning :=
    hslots.returning_state slot List.mem_cons_self
  refine ⟨fun _ entry hentry => h.again_others hslots _ hentry, fun i hi => ?_, fun i hi => ?_⟩
  -- the slot itself stands last, with the answer that the decoder was busy
  · rw [List.map_append] at hi
    rcases List.mem_append.mp hi with hi | hi
    · exact (h.queued_others hslots _ hi).2
    · cases List.mem_singleton.mp hi
      exact ⟨hslot, outputNow_offered kind _⟩
  · rw [← List.append_assoc, List.map_append, List.mem_append]
    by_cases heq : i = slot
    · exact Or.inl (Or.inr (heq ▸ List.mem_cons_self))
    · exact (h.all_others _ heq hi).imp_left Or.inl

/-- The decoder refuses the slot, and those behind it are not offered any more. -/
theorem refuse (h : ReturnsQueued ((slot, kind) :: rest) p trace)
    (hslots : p.Accounted (slot :: rest.map (·.1))) (reason : String) :
    ReturnsQueued [] p (.called (kind.call slot) (.error (.failed reason)) :: trace) := by
  refine ⟨fun hmany => absurd hmany (by simp), fun i hi => (h.queued_others hslots _ hi).2, ?_⟩
  intro i hi
  by_cases heq : i = slot
  · exact Or.inr (Or.inl (heq ▸ outputNow_offered kind _))
  · rcases h.all_others (.error (.failed reason)) heq hi with hmem | hdropped
    · rw [List.map_append, List.mem_append] at hmem
      refine hmem.symm.imp_right fun hrest => Or.inr (Or.inr ⟨output?_other heq kind _, Or.inr ?_⟩)
      -- there is another to be offered, so that this one was put off before
      have hmany : 1 < ((slot, kind) :: rest).length := by
        have := List.length_pos_of_mem hrest
        simpa using this
      refine ⟨slot, ?_, h.again hmany (slot, kind) List.mem_cons_self⟩
      rw [Occurrence.output?_return, if_pos rfl]
      rfl
    · exact Or.inr hdropped

/-- Nothing waits, and nothing is on its way back. -/
theorem renewed (h : ({ p with pendingUnits := [] } : Pipeline).Fresh) (trace : Trace) :
    ReturnsQueued [] p trace where
  again hmany := absurd hmany (by simp)
  queued := by simp [show p.deferred = [] from h.deferred]
  all i hi := by cases h.outputs i _ hi

/-- Another kind of return is no other return. -/
theorem released (h : ReturnsQueued offered p trace) :
    ReturnsQueued (offered.map fun entry => (entry.1, .release)) p trace where
  again hmany entry hentry := by
    obtain ⟨entry', hentry', rfl⟩ := List.mem_map.mp hentry
    exact h.again (by simpa using hmany) entry' hentry'
  queued := h.queued
  all i hi := by simpa [Function.comp_def] using h.all i hi

/-- The decoder is told to stop, or to free everything, and nothing waits. -/
theorem forget (hdeferred : p.deferred = []) {c : DecoderCall} (hc : c = .stop ∨ c = .release)
    (answer : Except DecoderError Unit) : ReturnsQueued [] p (.called c answer :: trace) where
  again hmany := absurd hmany (by simp)
  queued := by simp [hdeferred]
  all i _ := by
    refine Or.inr (Or.inr (Or.inl ?_))
    rw [Trace.outputNow_cons]
    rcases hc with rfl | rfl <;> rfl

end ReturnsQueued

/-- Every operation keeps it, a teardown too. -/
theorem endures_returnsQueued : Endures fun _ offered => ReturnsQueued offered where
  fresh p _ hp _ := .renewed (p := p) ⟨hp.inputs, hp.outputs, hp.freeInputs, rfl, hp.deferred⟩ _
  submitted _ _ _ h := (h.quiet fun _ => rfl).congr rfl rfl
  dropped _ _ h := (h.quiet fun _ => rfl).congr rfl rfl
  gave _ _ _ _ _ _ h := h.quiet fun _ => rfl
  entered _ _ _ _ _ h := h.congr rfl rfl
  filled _ _ _ _ _ _ _ _ h := (h.quiet fun _ => rfl).congr rfl rfl
  unfilled _ _ _ _ h := (h.quiet fun _ => rfl).congr rfl rfl
  unfed _ _ _ _ _ h := h.quiet fun _ => rfl
  handedOut _ _ _ hslot h := h.handOut hslot
  givenBack _ _ _ kind hslot h := h.giveBack hslot kind
  takenOut _ _ h := h.takeOut
  taken _ _ _ _ _ hslots h := h.taken hslots
  deferred _ _ _ _ _ hslots h := h.defer hslots
  refused _ _ _ _ _ reason hslots h := h.refuse hslots reason
  noticed _ _ h := h.congr rfl rfl
  misused _ _ h := h
  released _ _ _ h := h.released
  emptied _ _ _ _ answer hc _ hempty := .forget hempty.deferred hc answer

/-! ## Every state of a pipeline -/

/-- The states that the pipeline of a track can come to. It is asked for one thing after the other,
whether that ends well or not. A configuration that ends well finds nothing in the queues. -/
inductive Reached (device : DecoderDevice δ) (track : Nat) (d : δ) : Pipeline × Traced δ → Prop
  | start : Reached device track d ({ track }, ⟨d, []⟩)
  | operate {t : Pipeline × Traced δ} (op : Operation) (before : Reached device track d t) :
    Reached device track d ((op.perform device).stateAfter t)
  | configure {t : Pipeline × Traced δ} (format : MediaFormat) (onSurface : Bool)
    (before : Reached device track d t)
    (idle : (Pipeline.configure device.traced format onSurface).Ends t
      (fun _ _ => t.1.freeInputs = [] ∧ t.1.deferred = []) fun _ _ => True) :
    Reached device track d ((Pipeline.configure device.traced format onSurface).stateAfter t)

/-- What every operation keeps holds in every state, if it is about slots alone, and holds where the
queues are empty and the decoder has all slots. -/
theorem Reached.kept {J : List Nat → List (Nat × ReturnKind) → Pipeline → Trace → Prop}
    (hJ : Endures J)
    (hquiet : ∀ p trace (o : Occurrence), (∀ slot, o.input? slot = none) →
      (∀ slot, o.output? slot = none) → J [] [] p trace → J [] [] p (o :: trace))
    (hrenewed : ∀ p trace, ({ p with pendingUnits := [] } : Pipeline).Fresh → J [] [] p trace)
    {device : DecoderDevice δ} {track : Nat} {d : δ} {t : Pipeline × Traced δ}
    (h : Reached device track d t) : Kept J [] [] t := by
  induction h with
  | start =>
    -- induction on how the state was come to; an operation keeps `J` even when it fails
    have hfresh : ({ track } : Pipeline).Fresh := .ofNew rfl rfl rfl rfl rfl
    exact ⟨hfresh.accounted, hrenewed _ _ hfresh⟩
  | operate op _ ih =>
    apply Ends.stateAfter (I := fun t => Kept J [] [] t)
    exact (hJ.perform device op ih).imp (fun _ _ ht => ht) fun _ _ he => he.1
  | @configure t format onSurface _ idle ih =>
    obtain ⟨p, t⟩ := t
    apply Ends.stateAfter (I := fun t => Kept J [] [] t)
    -- a configuration that ends well has found the queues empty, and any other has changed no queue
    have hends : (Pipeline.configure device.traced format onSurface).Ends (p, t)
        (fun _ t' => p.freeInputs = [] ∧ p.deferred = [] → Kept J [] [] t')
        fun _ t' => Kept J [] [] t' := by
      have hconfigured (answer : Except DecoderError Unit) :
          J [] [] p (.called (.configure format onSurface) answer :: t.trace) :=
        hquiet _ _ _ (fun _ => rfl) (fun _ => rfl) ih.2
      apply ends_configure
      · rintro t' - ⟨hfree, hdeferred⟩
        have hfresh : ({ p with
            inputs := .new p.track (device.traced.inputSlots t')
            outputs := .new p.track (device.traced.outputSlots t')
            started := true
            pendingUnits := [] } : Pipeline).Fresh := .ofNew rfl rfl hfree rfl hdeferred
        exact ⟨hfresh.accounted.congr rfl rfl rfl rfl, hrenewed _ _ hfresh⟩
      · exact fun e => ⟨ih.1, hconfigured _⟩
      · exact fun e => ⟨ih.1, hquiet _ _ _ (fun _ => rfl) (fun _ => rfl) (hconfigured _)⟩
    exact (idle.and hends).imp (fun _ _ ht => ht.2 ht.1) fun _ _ he => he.2

section Runs

variable {device : DecoderDevice δ} {track : Nat} {d : δ} {t : Pipeline × Traced δ}

/-- A pipeline that is configured for the first time. -/
theorem Reached.configured (format : MediaFormat) (onSurface : Bool) :
    Reached device track d (Pipeline.configured device format onSurface track d) :=
  .configure format onSurface .start (ends_of_forall (fun _ _ => ⟨rfl, rfl⟩) fun _ _ => trivial)

/-- One operation after the other. -/
theorem Reached.performAll (h : Reached device track d t) (ops : List Operation) :
    Reached device track d (performAll device ops t) := by
  induction ops generalizing t with
  | nil => exact h
  | cons op ops ih => exact ih (h.operate op)

/-- In every state the free inputs are exactly the input slots that are free and that no teardown
has forgotten, each of them once. The deferred returns are, each of them once, output slots on their
way back that the decoder put off last; and a slot on its way back is among them unless the decoder
refused it, a teardown has forgotten it, or the decoder refused another one that it had put off. -/
theorem queues_hold_what_waits (h : Reached device track d t) :
    t.1.freeInputs.Nodup ∧
    (∀ slot, slot ∈ t.1.freeInputs ↔
      t.1.inputs.state? slot = some .free ∧ t.2.trace.inputNow slot ≠ .forgotten) ∧
    (t.1.deferred.map (·.1)).Nodup ∧
    (∀ slot ∈ t.1.deferred.map (·.1),
      t.1.outputs.state? slot = some .returning ∧ t.2.trace.outputNow slot = .waiting) ∧
    ∀ slot, t.1.outputs.state? slot = some .returning →
      slot ∈ t.1.deferred.map (·.1) ∨ t.2.trace.Dropped slot := by
  obtain ⟨haccounted, hinputs⟩ := h.kept endures_inputsQueued
    (fun _ _ _ hinput _ h => h.quiet hinput) fun _ trace hp => .renewed hp trace
  obtain ⟨-, hreturns⟩ := h.kept endures_returnsQueued
    (fun _ _ _ _ houtput h => h.quiet houtput) fun _ trace hp => .renewed hp trace
  refine ⟨hinputs.nodup, fun slot => ⟨fun hmem => ?_, fun hfree => ?_⟩,
    haccounted.returning_nodup, hreturns.queued, hreturns.all⟩
  · obtain ⟨hstate, hwaiting⟩ := hinputs.queued slot hmem
    exact ⟨hstate, by simp [hwaiting]⟩
  · exact (hinputs.all slot hfree.1).resolve_right hfree.2

/-- The decoder puts a return off, and is stopped before it takes it. -/
def stoppedReturn : Pipeline × Traced (List (Except DecoderError Unit)) :=
  performAll .answering [.outputReady 1 0 [], .returnOutput 1 .release, .teardown]
    (configured .answering (.video "video/avc" 64 48) true 0
      [.ok (), .ok (), .error .busy, .error .busy])

/-- That is a state of the pipeline. -/
theorem stoppedReturn_reached :
    Reached .answering 0 [.ok (), .ok (), .error .busy, .error .busy] stoppedReturn :=
  (Reached.configured _ _).performAll _

/-- The return was forgotten when the decoder was told to stop. -/
theorem stoppedReturn_dropped :
    Reached .answering 0 [.ok (), .ok (), .error .busy, .error .busy] stoppedReturn ∧
      stoppedReturn.2.trace.Dropped 1 := by
  obtain ⟨-, -, -, -, hall⟩ := queues_hold_what_waits stoppedReturn_reached
  exact ⟨stoppedReturn_reached, (hall 1 (by decide +kernel)).resolve_left (by decide +kernel)⟩

/-- Not every slot on its way back is a deferred return: a teardown empties the queue and leaves
the table as it is. -/
theorem stoppedReturn_not_queued :
    Reached .answering 0 [.ok (), .ok (), .error .busy, .error .busy] stoppedReturn ∧
      ¬ ∀ slot, stoppedReturn.1.outputs.state? slot = some .returning →
        slot ∈ stoppedReturn.1.deferred.map (·.1) := by
  refine ⟨stoppedReturn_reached, fun hall => ?_⟩
  have hreturning : stoppedReturn.1.outputs.state? 1 = some .returning := by decide +kernel
  have hqueued : 1 ∉ stoppedReturn.1.deferred.map (·.1) := by decide +kernel
  exact hqueued (hall 1 hreturning)

end Runs

end Pipeline

end Playout
