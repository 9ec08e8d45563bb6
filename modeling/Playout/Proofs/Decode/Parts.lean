import Mathlib.Logic.Basic
import Playout.Decode.Pipeline
import Playout.Proofs.Action

/-!
# The parts of pipeline operations

One rule for each part that the operations of a pipeline are built from: where it ends, case by
case. The rules for the two loops, feeding the decoder and offering it the deferred returns, are
about any `J` that their steps keep (`Feeds`, `TakesBack`). No other module needs to open these
parts.
-/

namespace Playout

namespace SlotTable

/-- The table with one slot given to `s`. -/
def put (t : SlotTable) (slot : Nat) (s : SlotState) : SlotTable :=
  { t with states := t.states.set slot s }

/-- The slot has its new owner. -/
theorem state?_put_self {t : SlotTable} {slot : Nat} {s : SlotState} (h : t.state? slot = some s)
    (s' : SlotState) : (t.put slot s').state? slot = some s' := by
  have hlt : slot < t.states.length := by
    obtain ⟨hlt, _⟩ := List.getElem?_eq_some_iff.mp h
    exact hlt
  simp [state?, put, hlt]

/-- The other slots have theirs. -/
theorem state?_put_of_ne {slot i : Nat} (h : i ≠ slot) (t : SlotTable) (s : SlotState) :
    (t.put slot s).state? i = t.state? i := by
  simp [state?, put, Ne.symm h]

/-- Every slot of the list has the owner `s`. -/
def AllIn (t : SlotTable) (s : SlotState) (slots : List Nat) : Prop :=
  ∀ i ∈ slots, t.state? i = some s

/-- A slot with another owner is not in the list. -/
theorem AllIn.not_mem {t : SlotTable} {s s' : SlotState} {slots : List Nat} {slot : Nat}
    (h : t.AllIn s slots) (hslot : t.state? slot = some s') (hne : s' ≠ s) : slot ∉ slots :=
  fun hmem => hne (Option.some.inj (hslot.symm.trans (h slot hmem)))

/-- Slots outside of the list may change their owner. -/
theorem AllIn.put {t : SlotTable} {s : SlotState} {slots : List Nat} {slot : Nat}
    (h : t.AllIn s slots) (hslot : slot ∉ slots) (s' : SlotState) :
    (t.put slot s').AllIn s slots := fun i hi => by
  rw [state?_put_of_ne (ne_of_mem_of_not_mem hi hslot)]
  exact h i hi

theorem slotsIn_nodup (t : SlotTable) (s : SlotState) : (t.slotsIn s).Nodup :=
  List.nodup_range.filter _

theorem slotsIn_allIn (t : SlotTable) (s : SlotState) : t.AllIn s (t.slotsIn s) := fun i hi => by
  simpa [state?] using (List.mem_filter.mp hi).2

/-- One more slot gets that owner. -/
theorem AllIn.put_cons {t : SlotTable} {s s' : SlotState} {slots : List Nat} {slot : Nat}
    (h : t.AllIn s slots) (hslot : t.state? slot = some s') (hne : s' ≠ s) :
    (t.put slot s).AllIn s (slot :: slots) := fun i hi => by
  rcases List.mem_cons.mp hi with rfl | hi
  · exact state?_put_self hslot s
  · exact h.put (h.not_mem hslot hne) s i hi

/-- In a new table every slot is with the decoder. -/
theorem state?_new {track count i : Nat} {s : SlotState}
    (h : (new track count).state? i = some s) : s = .pending :=
  List.eq_of_mem_replicate (List.mem_of_getElem? h)

/-- A slot that is where it should be is moved. -/
theorem move_of_state {t : SlotTable} {slot : Nat} {source : SlotState}
    (h : t.state? slot = some source) (target : SlotState) (reason : String) :
    t.move slot source target reason = .ok (t.put slot target) := by
  have hstate : t.states[slot]? = some source := h
  simp only [move, hstate, if_pos]
  rfl

/-- A move that is done was allowed. -/
theorem move_ok {t t' : SlotTable} {slot : Nat} {source target : SlotState} {reason : String}
    (h : t.move slot source target reason = .ok t') :
    t.state? slot = some source ∧ t' = t.put slot target := by
  unfold move at h
  split at h
  · cases h
  · next s hs =>
    split at h
    · next heq =>
      subst heq
      exact ⟨hs, (Except.ok.inj h).symm⟩
    · cases h

/-- What a refused move says: the given reason, or that there is no such slot. -/
def Complaint (reason text : String) : Prop := text = reason ∨ text = "slot index out of range"

/-- A slot that is not moved is not where it should be, and the fault names it. -/
theorem move_error {t : SlotTable} {slot : Nat} {source target : SlotState} {reason : String}
    {e : Fault} (h : t.move slot source target reason = .error e) :
    t.state? slot ≠ some source ∧ ∃ text, Complaint reason text ∧
      e = .slotMisuse t.track slot text := by
  unfold move at h
  unfold state?
  split at h
  · next hnone => -- there is no such slot
    cases h
    refine ⟨?_, _, Or.inr rfl, rfl⟩
    rw [hnone]
    exact fun hsome => by cases hsome
  · next s hs => -- there is, with another owner
    split at h
    · cases h
    · next hne =>
      cases h
      refine ⟨?_, _, Or.inl rfl, rfl⟩
      rw [hs]
      exact fun hsome => hne (Option.some.inj hsome)

/-- Of the slots that a decoder gives, those that are entered: all before the first that the
decoder does not own. -/
def entered (t : SlotTable) : List Nat → List Nat
  | [] => []
  | slot :: slots =>
    if t.state? slot = some .pending then slot :: (t.put slot .free).entered slots else []

/-- The fault names a slot that the decoder gives but does not own: because of its state, or because
it stands in the list already. -/
def Refuses (t : SlotTable) (slots : List Nat) (e : Fault) : Prop :=
  ∃ before slot after text, slots = before ++ slot :: after ∧
    (slot ∈ before ∨ t.state? slot ≠ some .pending) ∧
    Complaint "input slot is already free" text ∧ e = .slotMisuse t.track slot text

theorem Refuses.cons {t : SlotTable} {slot : Nat} {slots : List Nat} {e : Fault}
    (h : (t.put slot .free).Refuses slots e) : t.Refuses (slot :: slots) e := by
  obtain ⟨before, other, after, text, heq, hmisplaced, htext, he⟩ := h
  refine ⟨slot :: before, other, after, text, by rw [heq, List.cons_append], ?_, htext, he⟩
  -- the first slot has been given, and the others are where they were
  by_cases hsame : other = slot
  · exact Or.inl (hsame ▸ List.mem_cons_self)
  · rw [state?_put_of_ne hsame] at hmisplaced
    exact hmisplaced.imp_left (List.mem_cons_of_mem _)

theorem Refuses.isFatal {t : SlotTable} {slots : List Nat} {e : Fault} (h : t.Refuses slots e) :
    e.isFatal = true := by
  obtain ⟨_, _, _, _, _, _, _, rfl⟩ := h
  rfl

end SlotTable

namespace Pipeline

open Playout.Action

variable {δ : Type}

section Parts

variable {p : Pipeline} {d : δ} {device : DecoderDevice δ} {Q : Unit → Pipeline × δ → Prop}
  {E : Fault → Pipeline × δ → Prop}

@[simp] theorem ends_update (f : Pipeline → Pipeline) :
    (update f : Step δ Unit).Ends (p, d) Q E ↔ Q () (f p, d) := Iff.rfl

@[simp] theorem ends_tell {Q : Except DecoderError Unit → Pipeline × δ → Prop}
    (c : DecoderCall) :
    (tell device c).Ends (p, d) Q E ↔ Q (device.call c d).1 (p, (device.call c d).2) := Iff.rfl

@[simp] theorem ends_takeRetry {Q : Bool → Pipeline × δ → Prop} :
    (takeRetry : Step δ Bool).Ends (p, d) Q E ↔
      Q p.retryNeeded ({ p with retryNeeded := false }, d) := Iff.rfl

/-- A call that must succeed. -/
theorem ends_demand (c : DecoderCall) (ok : (device.call c d).1 = .ok () →
      Q () (p, (device.call c d).2))
    (refused : ∀ e, (device.call c d).1 = .error e →
      E (.decoder p.track e) (p, (device.call c d).2)) :
    (demand device c).Ends (p, d) Q E := by
  simp only [demand, ends_bind, ends_get, ends_tell]
  cases h : (device.call c d).1 with
  | ok x => exact ok h
  | error e => exact refused e h

/-- A move of an output slot that is where it should be. -/
theorem ends_moveOutput {slot : Nat} {source : SlotState} (target : SlotState) (reason : String)
    (h : p.outputs.state? slot = some source)
    (hQ : Q () ({ p with outputs := p.outputs.put slot target }, d)) :
    (moveOutput slot source target reason).Ends (p, d) Q E := by
  simp only [moveOutput, ends_bind, ends_get, SlotTable.move_of_state h, ends_ofExcept_ok,
    ends_update]
  exact hQ

/-- An output slot that is not where it should be is left there. -/
theorem ends_moveOutput_or {slot : Nat} {source target : SlotState} {reason : String}
    (moved : p.outputs.state? slot = some source →
      Q () ({ p with outputs := p.outputs.put slot target }, d))
    (misused : ∀ e, E e (p, d)) :
    (moveOutput slot source target reason).Ends (p, d) Q E := by
  simp only [moveOutput, ends_bind, ends_get]
  cases hmove : p.outputs.move slot source target reason with
  | error e => exact misused e
  | ok table =>
    obtain ⟨hstate, rfl⟩ := SlotTable.move_ok hmove
    exact moved hstate

/-- An output slot is moved, or it is not where it should be and the fault says so. -/
theorem ends_moveOutput_complaint {slot : Nat} {source target : SlotState} {reason : String}
    (moved : p.outputs.state? slot = some source →
      Q () ({ p with outputs := p.outputs.put slot target }, d))
    (misused : ∀ text, SlotTable.Complaint reason text → p.outputs.state? slot ≠ some source →
      E (.slotMisuse p.outputs.track slot text) (p, d)) :
    (moveOutput slot source target reason).Ends (p, d) Q E := by
  simp only [moveOutput, ends_bind, ends_get]
  cases hmove : p.outputs.move slot source target reason with
  | ok table =>
    obtain ⟨hstate, rfl⟩ := SlotTable.move_ok hmove
    exact moved hstate
  | error e =>
    obtain ⟨hstate, text, htext, rfl⟩ := SlotTable.move_error hmove
    exact misused text htext hstate

/-- The same, whatever the fault says. -/
theorem ends_moveOutput_named {slot : Nat} {source target : SlotState} {reason : String}
    (moved : p.outputs.state? slot = some source →
      Q () ({ p with outputs := p.outputs.put slot target }, d))
    (misused : ∀ track text, p.outputs.state? slot ≠ some source →
      E (.slotMisuse track slot text) (p, d)) :
    (moveOutput slot source target reason).Ends (p, d) Q E :=
  ends_moveOutput_complaint moved fun text _ => misused _ text

/-- An input slot is moved, or it is not where it should be and the fault says so. -/
theorem ends_moveInput_complaint {slot : Nat} {source target : SlotState} {reason : String}
    (moved : p.inputs.state? slot = some source →
      Q () ({ p with inputs := p.inputs.put slot target }, d))
    (misused : ∀ text, SlotTable.Complaint reason text → p.inputs.state? slot ≠ some source →
      E (.slotMisuse p.inputs.track slot text) (p, d)) :
    (moveInput slot source target reason).Ends (p, d) Q E := by
  simp only [moveInput, ends_bind, ends_get]
  cases hmove : p.inputs.move slot source target reason with
  | ok table =>
    obtain ⟨hstate, rfl⟩ := SlotTable.move_ok hmove
    exact moved hstate
  | error e =>
    obtain ⟨hstate, text, htext, rfl⟩ := SlotTable.move_error hmove
    exact misused text htext hstate

/-- The same, whatever the fault says. -/
theorem ends_moveInput {slot : Nat} {source target : SlotState} {reason : String}
    (moved : p.inputs.state? slot = some source →
      Q () ({ p with inputs := p.inputs.put slot target }, d))
    (misused : ∀ track text, p.inputs.state? slot ≠ some source →
      E (.slotMisuse track slot text) (p, d)) :
    (moveInput slot source target reason).Ends (p, d) Q E :=
  ends_moveInput_complaint moved fun text _ => misused _ text

/-- An offered slot is taken back, put off, or refused. The decoder may also take one that is not
on its way back, which is a misuse. -/
theorem ends_finishReturn {slot : Nat} {kind : ReturnKind}
    (taken : (device.call (kind.call slot) d).1 = .ok () → p.outputs.state? slot = some .returning →
      Q () ({ p with outputs := p.outputs.put slot .pending }, (device.call (kind.call slot) d).2))
    (deferred : (device.call (kind.call slot) d).1 = .error .busy →
      Q () ({ p with deferred := p.deferred ++ [(slot, kind)], retryNeeded := true },
        (device.call (kind.call slot) d).2))
    (refused : ∀ reason, (device.call (kind.call slot) d).1 = .error (.failed reason) →
      E (.decoder p.track (.failed reason)) (p, (device.call (kind.call slot) d).2))
    (misused : ∀ text, (device.call (kind.call slot) d).1 = .ok () →
      SlotTable.Complaint "output slot is not being returned" text →
      p.outputs.state? slot ≠ some .returning →
      E (.slotMisuse p.outputs.track slot text) (p, (device.call (kind.call slot) d).2)) :
    (finishReturn device slot kind).Ends (p, d) Q E := by
  simp only [finishReturn, ends_bind, ends_get, ends_tell]
  -- the call comes first, and only an accepted one is a move in the table
  cases hanswer : (device.call (kind.call slot) d).1 with
  | ok x =>
    exact ends_moveOutput_complaint (fun hstate => taken hanswer hstate)
      fun text htext hstate => misused text hanswer htext hstate
  | error e =>
    cases e with
    | busy => exact deferred hanswer
    | failed reason => exact refused reason hanswer

/-- A decoder is configured and started, and owns all of its slots. -/
theorem ends_configure {format : MediaFormat} {onSurface : Bool}
    (started : ∀ d', d' = (device.call .start (device.call (.configure format onSurface) d).2).2 →
      Q () ({ p with
        inputs := .new p.track (device.inputSlots d')
        outputs := .new p.track (device.outputSlots d')
        started := true }, d'))
    (unconfigured : ∀ e,
      E (.decoder p.track e) (p, (device.call (.configure format onSurface) d).2))
    (unstarted : ∀ e, E (.decoder p.track e)
      (p, (device.call .start (device.call (.configure format onSurface) d).2).2)) :
    (configure device format onSurface).Ends (p, d) Q E := by
  simp only [configure, ends_bind]
  refine ends_demand _ (fun _ => ?_) fun e _ => unconfigured _
  exact ends_demand _ (fun _ => started _ rfl) fun e _ => unstarted _

end Parts

/-! ## Entering input slots -/

/-- The slots that a decoder gives are entered one after the other, until one is refused. -/
theorem ends_enterAll {J : List Nat → Pipeline × δ → Prop}
    (hentered : ∀ p d slot coming, p.inputs.state? slot = some .pending →
      J (slot :: coming) (p, d) → J coming ({ p with
        inputs := p.inputs.put slot .free, freeInputs := p.freeInputs ++ [slot] }, d))
    (slots : List Nat) {p : Pipeline} {d : δ} (h : J (p.inputs.entered slots) (p, d)) :
    (slots.forM fun slot => (do
      moveInput slot .pending .free "input slot is already free"
      update fun p => { p with freeInputs := p.freeInputs ++ [slot] } : Step δ Unit)).Ends (p, d)
      (fun _ t => J [] t) fun e t => J [] t ∧ p.inputs.Refuses slots e := by
  induction slots generalizing p with
  | nil => exact h
  | cons slot slots ih =>
    show ((do
      moveInput slot .pending .free "input slot is already free"
      update fun p => { p with freeInputs := p.freeInputs ++ [slot] }) >>= fun _ =>
        slots.forM _).Ends _ _ _
    simp only [ends_bind]
    apply ends_moveInput_complaint
    -- a slot of the decoder becomes free, and the next one is looked at in the new table
    · intro hstate
      simp only [ends_update]
      rw [SlotTable.entered, if_pos hstate] at h
      exact (ih (hentered p d slot _ hstate h)).imp (fun _ _ ht => ht)
        fun _ _ ht => ⟨ht.1, ht.2.cons⟩
    · intro text htext hstate
      rw [SlotTable.entered, if_neg hstate] at h
      exact ⟨h, [], slot, slots, text, rfl, Or.inr hstate, htext, rfl⟩

/-! ## Feeding -/

/-- Nothing more can be fed: for want of slots or of units, or the decoder is busy. -/
def Sated (p : Pipeline) : Prop :=
  p.freeInputs = [] ∨ p.pendingUnits = [] ∨ p.retryNeeded = true

/-- One slot and one unit are in front of those that wait. -/
structure Front (p : Pipeline) (slot : Nat) (slots : List Nat) (unit : AccessUnit)
    (units : List AccessUnit) : Prop where
  slots : p.freeInputs = slot :: slots
  units : p.pendingUnits = unit :: units

/-- What feeding keeps: the front unit goes into the front slot, or the decoder is busy. Where it
ends in a fault, that is one of the decoder, or the front slot was not free. -/
structure Feeds (device : DecoderDevice δ) (J : Pipeline × δ → Prop)
    (E : Fault → Pipeline × δ → Prop) : Prop where
  filled : ∀ p d slot slots unit units, p.Front slot slots unit units →
    (device.call (.queueInput slot unit) d).1 = .ok () → p.inputs.state? slot = some .free →
    J (p, d) → J ({ p with
      inputs := p.inputs.put slot .pending, freeInputs := slots, pendingUnits := units },
      (device.call (.queueInput slot unit) d).2)
  busy : ∀ p d slot slots unit units, p.Front slot slots unit units →
    (device.call (.queueInput slot unit) d).1 = .error .busy → J (p, d) →
    J ({ p with retryNeeded := true }, (device.call (.queueInput slot unit) d).2)
  refused : ∀ p d slot slots unit units reason, p.Front slot slots unit units →
    (device.call (.queueInput slot unit) d).1 = .error (.failed reason) → J (p, d) →
    E (.decoder p.track (.failed reason)) (p, (device.call (.queueInput slot unit) d).2)
  misused : ∀ p d slot slots unit units text, p.Front slot slots unit units →
    (device.call (.queueInput slot unit) d).1 = .ok () →
    SlotTable.Complaint "input slot not free" text → p.inputs.state? slot ≠ some .free →
    J (p, d) → E (.slotMisuse p.inputs.track slot text)
      (p, (device.call (.queueInput slot unit) d).2)

section Loops

variable {device : DecoderDevice δ}

/-- Feeding ends when one of the queues is empty or the decoder is busy, by induction on the units
that may be fed. -/
theorem Feeds.feed {J : Pipeline × δ → Prop} {E : Fault → Pipeline × δ → Prop}
    (hfeeds : Feeds device J E) (n : Nat) {p : Pipeline} {d : δ}
    (hn : p.pendingUnits.length ≤ n) (h : J (p, d)) :
    (Pipeline.feed device n).Ends (p, d) (fun _ t => J t ∧ t.1.Sated) E := by
  induction n generalizing p d with
  | zero => -- nothing is left to feed
    have hunits : p.pendingUnits = [] := List.length_eq_zero_iff.mp (Nat.le_zero.mp hn)
    exact ⟨h, Or.inr (Or.inl hunits)⟩
  | succ n ih =>
    simp only [Pipeline.feed, ends_bind, ends_get]
    cases hfree : p.freeInputs with
    | nil => exact ⟨h, Or.inl hfree⟩
    | cons slot slots =>
      cases hunits : p.pendingUnits with
      | nil => exact ⟨h, Or.inr (Or.inl hunits)⟩
      | cons unit units =>
        have hfront : p.Front slot slots unit units := ⟨hfree, hunits⟩
        simp only [ends_bind, ends_tell]
        cases hanswer : (device.call (.queueInput slot unit) d).1 with
        | error e =>
          cases e with
          | busy =>
            exact ⟨hfeeds.busy p d slot slots unit units hfront hanswer h, Or.inr (Or.inr rfl)⟩
          | failed reason => exact hfeeds.refused p d slot slots unit units reason hfront hanswer h
        | ok x =>
          simp only [ends_bind]
          apply ends_moveInput_complaint
          -- the front unit is fed, and one unit fewer waits
          · intro hstate
            have hfilled := hfeeds.filled p d slot slots unit units hfront hanswer hstate h
            simp only [ends_update, hfree, hunits, List.tail_cons]
            rw [hunits] at hn
            exact ih (Nat.le_of_succ_le_succ hn) hfilled
          · intro text htext hstate
            exact hfeeds.misused p d slot slots unit units text hfront hanswer htext hstate h

/-- The number of units that wait is fuel enough. -/
theorem Feeds.fillInputs {J : Pipeline × δ → Prop} {E : Fault → Pipeline × δ → Prop}
    (hfeeds : Feeds device J E) {t : Pipeline × δ} (h : J t) :
    (Pipeline.fillInputs device).Ends t (fun _ t => J t ∧ t.1.Sated) E := by
  obtain ⟨p, d⟩ := t
  simp only [Pipeline.fillInputs, ends_bind, ends_get]
  exact hfeeds.feed p.pendingUnits.length (Nat.le_refl _) h

end Loops

/-! ## Returns -/

/-- What offering the decoder a slot does while those in the list are to be offered: the first of
them is taken back or put off. Where it ends in a fault, that is one of the decoder, or the slot was
not on its way back. -/
structure TakesBack (device : DecoderDevice δ)
    (J : List (Nat × ReturnKind) → Pipeline × δ → Prop) (E : Fault → Pipeline × δ → Prop) :
    Prop where
  taken : ∀ p d slot kind rest, (device.call (kind.call slot) d).1 = .ok () →
    p.outputs.state? slot = some .returning → J ((slot, kind) :: rest) (p, d) →
    J rest ({ p with outputs := p.outputs.put slot .pending }, (device.call (kind.call slot) d).2)
  deferred : ∀ p d slot kind rest, (device.call (kind.call slot) d).1 = .error .busy →
    J ((slot, kind) :: rest) (p, d) →
    J rest ({ p with deferred := p.deferred ++ [(slot, kind)], retryNeeded := true },
      (device.call (kind.call slot) d).2)
  refused : ∀ p d slot kind rest reason,
    (device.call (kind.call slot) d).1 = .error (.failed reason) →
    J ((slot, kind) :: rest) (p, d) →
    E (.decoder p.track (.failed reason)) (p, (device.call (kind.call slot) d).2)
  misused : ∀ p d slot kind rest text, (device.call (kind.call slot) d).1 = .ok () →
    SlotTable.Complaint "output slot is not being returned" text →
    p.outputs.state? slot ≠ some .returning → J ((slot, kind) :: rest) (p, d) →
    E (.slotMisuse p.outputs.track slot text) (p, (device.call (kind.call slot) d).2)

namespace TakesBack

variable {device : DecoderDevice δ} {J : List (Nat × ReturnKind) → Pipeline × δ → Prop}
  {E : Fault → Pipeline × δ → Prop} (hback : TakesBack device J E)
include hback

/-- One slot of those that are offered. -/
theorem finishReturn {t : Pipeline × δ} (slot : Nat) (kind : ReturnKind)
    (rest : List (Nat × ReturnKind)) (h : J ((slot, kind) :: rest) t) :
    (Pipeline.finishReturn device slot kind).Ends t (fun _ t => J rest t) E := by
  obtain ⟨p, d⟩ := t
  -- one case for each answer of the decoder, and one for a slot that is not on its way back
  apply ends_finishReturn
  · intro hanswer hstate
    exact hback.taken p d slot kind rest hanswer hstate h
  · intro hanswer
    exact hback.deferred p d slot kind rest hanswer h
  · intro reason hanswer
    exact hback.refused p d slot kind rest reason hanswer h
  · intro text hanswer htext hstate
    exact hback.misused p d slot kind rest text hanswer htext hstate h

/-- The deferred returns are taken out and offered one after the other. -/
theorem retryReturns {p : Pipeline} {d : δ} (kindOf : ReturnKind → ReturnKind)
    (h : J (p.deferred.map fun entry => (entry.1, kindOf entry.2)) ({ p with deferred := [] }, d)) :
    (Pipeline.retryReturns device kindOf).Ends (p, d) (fun _ t => J [] t) E := by
  simp only [Pipeline.retryReturns, ends_bind, ends_get, ends_update]
  refine ends_forM (I := fun rest t => J (rest.map fun entry => (entry.1, kindOf entry.2)) t) ?_
    p.deferred h
  intro entry rest t ht
  exact hback.finishReturn entry.1 (kindOf entry.2) _ ht

end TakesBack

end Pipeline

end Playout
