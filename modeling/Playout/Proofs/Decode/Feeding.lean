import Playout.Proofs.Decode.Lending

/-!
# Units are fed in order

The units that wait and the input slots that are free are two queues that feeding consumes together,
and the table of the input slots is kept besides. `Fed` is the invariant that keeps the three in
step, in every run without a teardown:

    inputs_fed_in_order : what was submitted is fed, dropped or waits, in the order of submission
-/

namespace Playout

/-- What has become of a unit that was submitted. -/
inductive Fate where
  | fed
  | dropped
  | waiting
deriving DecidableEq

/-- The units of a history whose fate is a given one. -/
def unitsWith (P : Fate → Bool) (history : List (Fate × AccessUnit)) : List AccessUnit :=
  (history.filter fun entry => P entry.1).map (·.2)

/-- Histories one after the other. -/
theorem unitsWith_append (P : Fate → Bool) (history more : List (Fate × AccessUnit)) :
    unitsWith P (history ++ more) = unitsWith P history ++ unitsWith P more := by
  simp [unitsWith]

/-- Units of one fate. -/
theorem unitsWith_marked (P : Fate → Bool) (fate : Fate) (units : List AccessUnit) :
    unitsWith P (units.map (Prod.mk fate)) = if P fate then units else [] := by
  cases hfate : P fate <;> simp [unitsWith, List.filter_map, Function.comp_def, hfate]

namespace Occurrence

/-- The units that are submitted. -/
def submissions : Occurrence → List AccessUnit
  | .submitted unit => [unit]
  | _ => []

/-- The units that the decoder accepts. -/
def accepted : Occurrence → List AccessUnit
  | .called (.queueInput _ unit) (.ok ()) => [unit]
  | _ => []

/-- The units that are dropped. -/
def losses : Occurrence → List AccessUnit
  | .dropped units => units
  | _ => []

/-- The units that leave the queue. -/
def departures (o : Occurrence) : List (Fate × AccessUnit) :=
  o.accepted.map (Prod.mk .fed) ++ o.losses.map (Prod.mk .dropped)

end Occurrence

namespace Trace

/-- The units that were submitted, in order. -/
def submitted (trace : Trace) : List AccessUnit := trace.reverse.flatMap Occurrence.submissions

/-- The units that the decoder accepted, in order. -/
def fed (trace : Trace) : List AccessUnit := trace.reverse.flatMap Occurrence.accepted

/-- The units that were dropped, in order. -/
def dropped (trace : Trace) : List AccessUnit := trace.reverse.flatMap Occurrence.losses

/-- The units that left the queue, in order. -/
def departed (trace : Trace) : List (Fate × AccessUnit) :=
  trace.reverse.flatMap Occurrence.departures

variable (o : Occurrence) (trace : Trace)

theorem submitted_cons : submitted (o :: trace) = trace.submitted ++ o.submissions := by
  simp [submitted]

theorem fed_cons : fed (o :: trace) = trace.fed ++ o.accepted := by
  simp [fed]

theorem dropped_cons : dropped (o :: trace) = trace.dropped ++ o.losses := by
  simp [dropped]

theorem departed_cons : departed (o :: trace) = trace.departed ++ o.departures := by
  simp [departed]

/-- What has departed was fed or dropped. -/
theorem unitsWith_departed (P : Fate → Bool) :
    (P .fed = true → P .dropped = false → unitsWith P trace.departed = trace.fed) ∧
      (P .fed = false → P .dropped = true → unitsWith P trace.departed = trace.dropped) := by
  -- by induction on the trace: each occurrence puts its own units in front
  induction trace with
  | nil => exact ⟨fun _ _ => rfl, fun _ _ => rfl⟩
  | cons o trace ih =>
    rw [departed_cons, unitsWith_append, Occurrence.departures, unitsWith_append,
      unitsWith_marked, unitsWith_marked, fed_cons, dropped_cons]
    refine ⟨fun hfed hdropped => ?_, fun hfed hdropped => ?_⟩
    · rw [ih.1 hfed hdropped]
      simp [hfed, hdropped]
    · rw [ih.2 hfed hdropped]
      simp [hfed, hdropped]

end Trace

namespace Pipeline

open Playout.Action

variable {δ : Type}

/-- What has become of every unit that was submitted, in order. -/
def history (p : Pipeline) (trace : Trace) : List (Fate × AccessUnit) :=
  trace.departed ++ p.pendingUnits.map (Prod.mk .waiting)

/-- The queues of a pipeline agree with its table of input slots, and with what has happened. The
slots in `coming` have been given but are not entered yet. -/
structure Fed (coming : List Nat) (p : Pipeline) (trace : Trace) : Prop where
  order : trace.submitted = trace.departed.map (·.2) ++ p.pendingUnits
  turns : Alternate trace.inputMoves fun slot =>
    p.inputs.state? slot = some .free ∨ slot ∈ coming
  coming_nodup : coming.Nodup
  coming_pending : p.inputs.AllIn .pending coming
  free_all : ∀ slot, p.inputs.state? slot = some .free → slot ∈ p.freeInputs

namespace Fed

variable {coming slots : List Nat} {p p' : Pipeline} {trace : Trace} {o : Occurrence} {slot : Nat}

/-- Only the input slots and the queues matter. -/
theorem congr (h : Fed coming p trace) (hinputs : p'.inputs = p.inputs)
    (hfree : p'.freeInputs = p.freeInputs) (hunits : p'.pendingUnits = p.pendingUnits) :
    Fed coming p' trace where
  order := by rw [hunits]; exact h.order
  turns := by rw [hinputs]; exact h.turns
  coming_nodup := h.coming_nodup
  coming_pending := by rw [hinputs]; exact h.coming_pending
  free_all := by rw [hinputs, hfree]; exact h.free_all

/-- What moves no input slot and no unit changes nothing. -/
theorem quiet (h : Fed coming p trace) (hmove : ∀ slot, o.inputMove? slot = none)
    (hsubmitted : o.submissions = []) (hdeparted : o.departures = []) :
    Fed coming p (o :: trace) :=
  { h with
    order := by
      rw [Trace.submitted_cons, Trace.departed_cons, hsubmitted, hdeparted, List.append_nil,
        List.append_nil]
      exact h.order
    turns := h.turns.congr (fun i => Trace.inputMoves_of_none (hmove i) trace) fun _ => Iff.rfl }

/-- Returns of output slots are nothing to the inputs. -/
theorem returned (h : Fed coming p trace) (slot : Nat) (kind : ReturnKind)
    (answer : Except DecoderError Unit) :
    Fed coming p (.called (kind.call slot) answer :: trace) := by
  apply h.quiet
  · intro i
    cases kind <;> rfl
  · rfl
  · cases kind <;> rfl

/-- A unit that is submitted waits behind the others. -/
theorem submit (h : Fed coming p trace) (unit : AccessUnit) :
    Fed coming { p with pendingUnits := p.pendingUnits ++ [unit] } (.submitted unit :: trace) :=
  { h with
    order := by
      rw [Trace.submitted_cons, Trace.departed_cons, h.order]
      simp [Occurrence.submissions, Occurrence.departures, Occurrence.accepted, Occurrence.losses]
    turns := h.turns.congr (fun _ => Trace.inputMoves_of_none rfl trace) fun _ => Iff.rfl }

/-- All that waits is dropped at once, in order. -/
theorem drop (h : Fed coming p trace) :
    Fed coming { p with pendingUnits := [] } (.dropped p.pendingUnits :: trace) :=
  { h with
    order := by
      rw [Trace.submitted_cons, Trace.departed_cons, h.order]
      simp [Occurrence.submissions, Occurrence.departures, Occurrence.accepted, Occurrence.losses,
        Function.comp_def]
    turns := h.turns.congr (fun _ => Trace.inputMoves_of_none rfl trace) fun _ => Iff.rfl }

/-- The decoder gives a slot, which is about to be entered. -/
theorem give (h : Fed coming p trace) (hslot : p.inputs.state? slot = some .pending)
    (hfresh : slot ∉ coming) : Fed (coming ++ [slot]) p (.gave slot :: trace) := by
  have hself : (Occurrence.gave slot).inputMove? slot = some .out := if_pos rfl
  have hother (i : Nat) (hi : i ≠ slot) : (Occurrence.gave slot).inputMove? i = none :=
    if_neg (Ne.symm hi)
  have hquiet : (Occurrence.gave slot).submissions = [] ∧ (Occurrence.gave slot).departures = [] :=
    ⟨rfl, rfl⟩
  refine ⟨?_, ?_, ?_, ?_, h.free_all⟩
  · rw [Trace.submitted_cons, Trace.departed_cons, hquiet.1, hquiet.2, List.append_nil,
      List.append_nil]
    exact h.order
  -- the slot was with the decoder, and is out until a unit in it is accepted
  · apply h.turns.goOut (Trace.inputMoves_of_some hself trace)
      fun i hi => Trace.inputMoves_of_none (hother i hi) trace
    · simp [hslot, hfresh]
    · simp
    · intro i hi
      simp [hi]
  · have hperm : (coming ++ [slot]).Perm (slot :: coming) := List.perm_append_singleton _ _
    exact hperm.nodup_iff.mpr (List.nodup_cons.mpr ⟨hfresh, h.coming_nodup⟩)
  · intro i hi
    rcases List.mem_append.mp hi with hi | hi
    · exact h.coming_pending i hi
    · exact List.mem_singleton.mp hi ▸ hslot

/-- A slot that was given is entered as free. -/
theorem enter (h : Fed (slot :: coming) p trace) (hslot : p.inputs.state? slot = some .pending) :
    Fed coming { p with
      inputs := p.inputs.put slot .free, freeInputs := p.freeInputs ++ [slot] } trace := by
  -- entering is no move: the slot was out from the time that it was given
  obtain ⟨hfresh, hnodup⟩ := List.nodup_cons.mp h.coming_nodup
  have hpending : p.inputs.AllIn .pending coming := fun i hi =>
    h.coming_pending i (List.mem_cons_of_mem _ hi)
  refine ⟨h.order, ?_, hnodup, hpending.put hfresh _, ?_⟩
  · refine h.turns.congr (fun _ => rfl) fun i => ?_
    by_cases hi : i = slot
    · subst hi
      simp [SlotTable.state?_put_self hslot]
    · simp [SlotTable.state?_put_of_ne hi, hi]
  · intro i hi
    by_cases heq : i = slot
    · simp [heq]
    · rw [SlotTable.state?_put_of_ne heq p.inputs] at hi
      exact List.mem_append_left _ (h.free_all i hi)

/-- The unit in front is fed into the slot in front. -/
theorem fill {unit : AccessUnit} {units : List AccessUnit} (h : Fed [] p trace)
    (hfront : p.Front slot slots unit units) (hslot : p.inputs.state? slot = some .free) :
    Fed [] { p with
      inputs := p.inputs.put slot .pending, freeInputs := slots, pendingUnits := units }
      (.called (.queueInput slot unit) (.ok ()) :: trace) := by
  have hself : (Occurrence.called (.queueInput slot unit) (.ok ())).inputMove? slot = some .back :=
    if_pos rfl
  have hother (i : Nat) (hi : i ≠ slot) :
      (Occurrence.called (.queueInput slot unit) (.ok ())).inputMove? i = none :=
    if_neg (Ne.symm hi)
  refine ⟨?_, ?_, List.nodup_nil, fun _ hi => absurd hi List.not_mem_nil, ?_⟩
  -- the front unit leaves the queue as the next one to have departed
  · rw [Trace.submitted_cons, Trace.departed_cons, h.order, hfront.units]
    simp [Occurrence.submissions, Occurrence.departures, Occurrence.accepted, Occurrence.losses]
  · apply h.turns.comeBack (Trace.inputMoves_of_some hself trace)
      fun i hi => Trace.inputMoves_of_none (hother i hi) trace
    · exact Or.inl hslot
    · simp [SlotTable.state?_put_self hslot]
    · intro i hi
      simp [SlotTable.state?_put_of_ne hi]
  · intro i hi
    have hne : i ≠ slot := by
      rintro rfl
      simp [SlotTable.state?_put_self hslot] at hi
    have hmem := h.free_all i (by simpa [SlotTable.state?_put_of_ne hne] using hi)
    rw [hfront.slots] at hmem
    exact (List.mem_cons.mp hmem).resolve_left hne

/-- Nothing has been fed by a decoder that was only configured and started. -/
theorem fresh (hp : p.Fresh)
    (htrace : ∀ o ∈ trace, ∃ c answer, o = .called c answer ∧ ¬ c.Quiet) : Fed [] p trace := by
  induction trace with
  | nil =>
    refine ⟨?_, ?_, List.nodup_nil, fun _ hi => absurd hi List.not_mem_nil, ?_⟩
    · simp [hp.pendingUnits, Trace.submitted, Trace.departed]
    · intro slot
      refine ⟨trivial, iff_of_false (fun hhead => by cases hhead) ?_⟩
      rintro (hstate | hmem)
      · cases hp.inputs slot _ hstate
      · exact absurd hmem List.not_mem_nil
    · intro slot hstate
      cases hp.inputs slot _ hstate
  | cons o trace ih =>
    obtain ⟨c, answer, rfl, hc⟩ := htrace o List.mem_cons_self
    -- configuring and starting feed nothing
    have hrest := ih fun o ho => htrace o (List.mem_cons_of_mem _ ho)
    cases c with
    | queueInput slot unit => exact absurd trivial hc
    | _ => exact hrest.quiet (fun _ => rfl) rfl rfl

end Fed

/-- Every part of a run keeps queues, table and trace in step. -/
theorem upholds_fed : Upholds (fun coming _ => Fed coming) (Fed []) where
  fresh _ _ hp htrace := .fresh hp htrace
  submitted _ _ unit h := h.submit unit
  dropped _ _ h := h.drop
  gave _ _ _ _ hslot hfresh h := h.give hslot hfresh
  entered _ _ _ _ hslot h := h.enter hslot
  filled _ _ _ _ _ _ hfront hslot h := h.fill hfront hslot
  unfilled _ _ _ _ h := (h.quiet (fun _ => rfl) rfl rfl).congr rfl rfl rfl
  unfed _ _ _ _ _ h := h.quiet (fun _ => rfl) rfl rfl
  -- from here on the parts work on outputs, which the units know nothing of
  handedOut _ _ _ _ h := (h.quiet (fun _ => rfl) rfl rfl).congr rfl rfl rfl
  givenBack _ _ _ _ _ h := h.congr rfl rfl rfl
  takenOut _ _ h := h.congr rfl rfl rfl
  taken _ _ slot kind _ _ h := (h.returned slot kind _).congr rfl rfl rfl
  deferred _ _ slot kind _ _ h := (h.returned slot kind _).congr rfl rfl rfl
  refused _ _ slot kind _ _ _ h := h.returned slot kind _
  noticed _ _ h := h.congr rfl rfl rfl
  misused _ _ h := h

/-! ## Runs -/

section Runs

variable {device : DecoderDevice δ}

/-- Feeding ends for want of slots or of units, or because the decoder is busy. -/
theorem fillInputs_sated (t : Pipeline × δ) :
    (fillInputs device).Ends t (fun _ t => t.1.Sated) fun _ _ => True := by
  have hfeeds : Feeds device (fun _ => True) fun _ _ => True := by
    constructor <;> intros <;> trivial
  exact (hfeeds.fillInputs trivial).imp (fun _ _ ht => ht.2) fun _ _ _ => trivial

/-- The operation ends with feeding. -/
def Operation.EndsFeeding : Operation → Prop
  | .submit _ | .inputsAvailable _ | .retry => True
  | _ => False

theorem perform_sated (op : Operation) (hop : op.EndsFeeding) (t : Pipeline × Traced δ) :
    (op.perform device).Ends t (fun _ t => t.1.Sated) fun _ _ => True := by
  -- whatever comes before the feeding, it does not matter
  have hfeeding {α : Type} (a : Step (Traced δ) α) (t : Pipeline × Traced δ) :
      a.Ends t (fun _ t => (fillInputs device.traced).Ends t (fun _ t => t.1.Sated)
        fun _ _ => True) fun _ _ => True :=
    ends_of_forall (fun _ t => fillInputs_sated t) fun _ _ => trivial
  cases op with
  | submit unit =>
    simp only [Operation.perform, Pipeline.submit, ends_bind]
    exact ends_of_forall (fun _ t => hfeeding _ t) fun _ _ => trivial
  | inputsAvailable slots =>
    simp only [Operation.perform, Pipeline.inputsAvailable, ends_bind, ends_get]
    exact ends_of_forall (fun _ t => hfeeding _ t) fun _ _ => trivial
  | retry =>
    simp only [Operation.perform, Pipeline.retry, ends_bind]
    exact hfeeding _ t
  | _ => exact hop.elim

/-- Whatever a decoder answers in a run without a teardown, every unit that was submitted has been
fed, has been dropped or waits, and the units that were not dropped are fed in the order in which
they came. An input slot is given before each unit that is fed into it. The free slots are queued
once each, so that none of them is misused, and an operation that feeds and ends well leaves no free
slot and unit together that the decoder was not too busy for. -/
theorem inputs_fed_in_order (device : DecoderDevice δ) (format : MediaFormat) (onSurface : Bool)
    (track : Nat) (d : δ) (ops : List Operation) (hops : .teardown ∉ ops) :
    let t := performAll device ops (configured device format onSurface track d)
    let history := t.1.history t.2.trace
    history.map (·.2) = t.2.trace.submitted ∧
    unitsWith (· = .fed) history = t.2.trace.fed ∧
    unitsWith (· = .dropped) history = t.2.trace.dropped ∧
    unitsWith (· ≠ .dropped) history = t.2.trace.fed ++ t.1.pendingUnits ∧
    (∀ slot, InTurns (t.2.trace.inputMoves slot)) ∧
    t.1.freeInputs.Nodup ∧
    (∀ slot, slot ∈ t.1.freeInputs ↔ t.1.inputs.state? slot = some .free) ∧
    ∀ op : Operation, (op.perform device).Ends t (fun _ t' => op.EndsFeeding → t'.1.Sated)
      fun e _ => (e.IsMisuse → op.Misuses t.1 e) ∧
        ∀ track slot, e ≠ .slotMisuse track slot "input slot not free" := by
  intro t history
  obtain ⟨haccounted, hfed⟩ : Kept (fun coming _ => Fed coming) [] [] t :=
    upholds_fed.performAll hops
  have hreturned : Returned t := ((upholds_lent False False).performAll hops)
  refine ⟨?_, ?_, ?_, ?_, fun slot => (hfed.turns slot).1, haccounted.free_nodup, ?_, ?_⟩
  -- what departed and what waits, by their units and by each fate
  · show (Trace.departed _ ++ _).map _ = _
    simp [hfed.order, Function.comp_def]
  · show unitsWith _ (Trace.departed _ ++ _) = _
    rw [unitsWith_append, (t.2.trace.unitsWith_departed _).1 rfl rfl, unitsWith_marked]
    exact List.append_nil _
  · show unitsWith _ (Trace.departed _ ++ _) = _
    rw [unitsWith_append, (t.2.trace.unitsWith_departed _).2 rfl rfl, unitsWith_marked]
    exact List.append_nil _
  · show unitsWith _ (Trace.departed _ ++ _) = _
    rw [unitsWith_append, (t.2.trace.unitsWith_departed _).1 rfl rfl, unitsWith_marked]
    rfl
  · exact fun slot => ⟨haccounted.free_state slot, hfed.free_all slot⟩
  -- the next operation misuses only what it names, and that is no free input slot
  · intro op
    have hperform : (op.perform device).Ends t (fun _ t => Returned t) _ :=
      perform_returned op hreturned
    by_cases hop : op.EndsFeeding
    · refine ((perform_sated op hop t).and hperform).imp (fun _ _ ht _ => ht.1) ?_
      intro e t' he
      refine ⟨he.2.2, ?_⟩
      rintro track slot rfl
      exact (he.2.2 trivial).named.2 rfl
    · refine hperform.imp (fun _ _ _ hfeeding => absurd hfeeding hop) ?_
      intro e t' he
      refine ⟨he.2, ?_⟩
      rintro track slot rfl
      exact (he.2 trivial).named.2 rfl

/-- The decoder is busy with a full slot in front of it, and the units that wait are dropped before
the retry. -/
def interruptedFeed : List Operation :=
  [.submit ⟨0, [1]⟩, .inputsAvailable [1, 0], .submit ⟨40, [2]⟩, .submit ⟨80, [3]⟩, .flush,
    .submit ⟨120, [4]⟩, .retry]

/-- The decoder after `interruptedFeed`. -/
def interrupted : Pipeline × Traced (List (Except DecoderError Unit)) :=
  performAll .answering interruptedFeed (configured .answering (.video "video/avc" 64 48) true 0
    [.ok (), .ok (), .ok (), .error .busy, .error .busy, .error .busy])

/-- What was fed and what was dropped are in order, each by itself. -/
theorem interruptedFeed_in_order :
    .teardown ∉ interruptedFeed ∧
    interrupted.2.trace.fed = [⟨0, [1]⟩, ⟨120, [4]⟩] ∧
    interrupted.2.trace.dropped = [⟨40, [2]⟩, ⟨80, [3]⟩] ∧
    (interrupted.1.history interrupted.2.trace).map (·.2) = interrupted.2.trace.submitted := by
  have hops : .teardown ∉ interruptedFeed := by decide
  obtain ⟨horder, -⟩ := inputs_fed_in_order .answering (.video "video/avc" 64 48) true 0
    [.ok (), .ok (), .ok (), .error .busy, .error .busy, .error .busy] interruptedFeed hops
  refine ⟨hops, by decide +kernel, by decide +kernel, ?_⟩
  rw [interrupted]
  exact horder

end Runs

end Pipeline

end Playout
