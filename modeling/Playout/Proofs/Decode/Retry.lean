import Playout.Proofs.Decode.Misuse

/-!
# Work that a decoder was too busy for

A pipeline is stuck with deferred returns, and with a unit for which an input slot is free: no
message of the decoder needs to come for them. `Heeded armed p` says that this is known, because
the mark for a retry is set or, if `armed`, a retry has been posted. Every operation keeps it, and
`retry` makes it true with nothing posted:

    retry_heeds : from any pipeline, a retry that does not fail leaves one that is heeded

What fails does so with a fault that ends the session, but for a stop that the decoder is too busy
for.
-/

namespace Playout.Pipeline

open Playout.Action

variable {δ : Type} {armed : Bool}

/-- Deferred returns are known of. -/
def ReturnsHeeded (armed : Bool) (p : Pipeline) : Prop :=
  p.deferred ≠ [] → p.retryNeeded = true ∨ armed = true

/-- A unit that an input slot is free for is known of. -/
def InputsHeeded (armed : Bool) (p : Pipeline) : Prop :=
  p.freeInputs ≠ [] → p.pendingUnits ≠ [] → p.retryNeeded = true ∨ armed = true

/-- Nothing that the decoder was too busy for is forgotten. -/
structure Heeded (armed : Bool) (p : Pipeline) : Prop where
  returns : p.ReturnsHeeded armed
  inputs : p.InputsHeeded armed

/-- With a retry posted everything is known of. -/
theorem Heeded.of_armed (p : Pipeline) : p.Heeded true :=
  ⟨fun _ => Or.inr rfl, fun _ _ => Or.inr rfl⟩

/-- Only what waits and the mark matter. -/
theorem Heeded.congr {p p' : Pipeline} (h : p.Heeded armed) (hdeferred : p'.deferred = p.deferred)
    (hfree : p'.freeInputs = p.freeInputs) (hunits : p'.pendingUnits = p.pendingUnits)
    (hnoticed : p'.retryNeeded = p.retryNeeded) : p'.Heeded armed := by
  refine ⟨?_, ?_⟩
  · rw [ReturnsHeeded, hdeferred, hnoticed]
    exact h.returns
  · rw [InputsHeeded, hfree, hunits, hnoticed]
    exact h.inputs

/-- The mark is given up once a retry is posted, or if it was not set. -/
theorem Heeded.clear {p : Pipeline} (h : p.Heeded armed)
    (hknown : p.retryNeeded = false ∨ armed = true) :
    { p with retryNeeded := false }.Heeded armed := by
  rcases hknown with hunmarked | rfl
  · exact h.congr rfl rfl rfl hunmarked.symm
  · exact .of_armed _

section Operations

variable {device : DecoderDevice δ} {p : Pipeline} {d : δ}

/-- Where nothing more can be fed, no unit waits for a free slot unnoticed. -/
theorem Sated.inputsHeeded (h : p.Sated) : p.InputsHeeded armed := by
  intro hfree hunits
  exact Or.inl ((h.resolve_left hfree).resolve_left hunits)

/-- Feeding leaves the deferred returns as they are, and fails only for good. -/
theorem feeds_heeds :
    Feeds device (fun t => t.1.ReturnsHeeded armed) fun e _ => e.isFatal = true where
  filled _ _ _ _ _ _ _ _ _ h := h
  busy _ _ _ _ _ _ _ _ _ _ := Or.inl rfl
  refused _ _ _ _ _ _ _ _ _ _ := rfl
  misused _ _ _ _ _ _ _ _ _ _ _ _ := rfl

/-- After feeding nothing more can be fed, or the mark is set. -/
theorem fillInputs_heeds (h : p.ReturnsHeeded armed) :
    (fillInputs device).Ends (p, d) (fun _ t => t.1.Heeded armed) fun e _ => e.isFatal = true := by
  apply (feeds_heeds.fillInputs h).imp
  · intro _ t ht
    exact ⟨ht.1, ht.2.inputsHeeded⟩
  · intro _ _ he
    exact he

/-- A unit that cannot be fed at once is known of. -/
theorem submit_heeds (h : p.Heeded armed) (unit : AccessUnit) :
    (submit device unit).Ends (p, d) (fun _ t => t.1.Heeded armed)
      fun e _ => e.isFatal = true := by
  simp only [submit, ends_bind, ends_update]
  exact fillInputs_heeds h.returns

/-- Nor is a slot forgotten that comes back. -/
theorem inputsAvailable_heeds (h : p.Heeded armed) (slots : List Nat) :
    (inputsAvailable device slots).Ends (p, d) (fun _ t => t.1.Heeded armed)
      fun e _ => e.isFatal = true := by
  simp only [inputsAvailable, ends_bind]
  apply (ends_enterAll (J := fun _ t => t.1.ReturnsHeeded armed) ?_ slots h.returns).imp
  · intro _ t ht
    exact fillInputs_heeds ht
  · intro e _ he
    exact he.2.isFatal
  · intro _ _ _ _ _ ht
    exact ht

/-- An output changes neither queue. -/
theorem outputReady_heeds (h : p.Heeded armed) (slot : Nat) (pts : Int) (payload : List UInt8) :
    (outputReady slot pts payload : Step δ DecodedOutput).Ends (p, d)
      (fun _ t => t.1.Heeded armed) fun e _ => e.isFatal = true := by
  simp only [outputReady, ends_bind, ends_pure]
  exact ends_moveOutput_named (fun _ => h.congr rfl rfl rfl rfl) fun _ _ _ => rfl

/-- A return that is deferred sets the mark. -/
theorem finishReturn_heeds (slot : Nat) (kind : ReturnKind) (h : p.ReturnsHeeded armed) :
    let Kept (t : Pipeline × δ) :=
      t.1.ReturnsHeeded armed ∧ (p.InputsHeeded armed → t.1.InputsHeeded armed)
    (finishReturn device slot kind).Ends (p, d) (fun _ t => Kept t)
      fun e t => Kept t ∧ e.isFatal = true := by
  -- taken, put off, refused, and misused
  apply ends_finishReturn
  · intro _ _
    exact ⟨h, id⟩
  · intro _
    exact ⟨fun _ => Or.inl rfl, fun _ _ _ => Or.inl rfl⟩
  · intro _ _
    exact ⟨⟨h, id⟩, rfl⟩
  · intro _ _ _ _
    exact ⟨⟨h, id⟩, rfl⟩

/-- A return that is put off sets the mark. -/
theorem returnOutput_heeds (kind : ReturnKind) :
    Passes (fun slot => returnOutput device slot kind) (fun _ t => t.1.Heeded armed)
      fun e _ => e.isFatal = true := by
  rintro slot held ⟨p, d⟩ h
  simp only [returnOutput, ends_bind]
  refine ends_moveOutput_named (fun _ => ?_) fun _ _ _ => ⟨h, rfl⟩
  have hmoved : { p with outputs := p.outputs.put slot .returning }.Heeded armed :=
    h.congr rfl rfl rfl rfl
  exact (finishReturn_heeds slot kind hmoved.returns).imp
    (fun _ _ ht => ⟨ht.1, ht.2 hmoved.inputs⟩)
    fun _ _ ht => ⟨⟨ht.1.1, ht.1.2 hmoved.inputs⟩, ht.2⟩

/-- A retry leaves nothing behind that is not known of. -/
theorem retry_heeds : (retry device).Ends (p, d) (fun _ t => t.1.Heeded false)
    fun e _ => e.isFatal = true := by
  simp only [retry, retryReturns, ends_bind, ends_get, ends_update]
  refine (ends_forM (I := fun _ t => t.1.ReturnsHeeded false) (E := fun e _ => e.isFatal = true)
    ?_ p.deferred fun hne => absurd rfl hne).imp (fun _ t ht => fillInputs_heeds ht)
    fun _ _ he => he
  rintro ⟨slot, kind⟩ rest ⟨p', d'⟩ hp'
  exact (finishReturn_heeds slot _ hp').imp (fun _ _ ht => ht.1) fun _ _ ht => ht.2

/-- A return that is not put off fails only for good. -/
theorem finishReturn_fatal (slot : Nat) (kind : ReturnKind) (t : Pipeline × δ) :
    (finishReturn device slot kind).Ends t (fun _ _ => True) fun e _ => e.isFatal = true :=
  (finishReturn_heeds slot kind (Heeded.of_armed t.1).returns).imp (fun _ _ _ => trivial)
    fun _ _ he => he.2

theorem returnOutput_fatal (slot : Nat) (kind : ReturnKind) (t : Pipeline × δ) :
    (returnOutput device slot kind).Ends t (fun _ _ => True) fun e _ => e.isFatal = true :=
  (returnOutput_heeds kind slot [] t (Heeded.of_armed t.1)).imp (fun _ _ _ => trivial)
    fun _ _ he => he.2

/-- A teardown that fails without a fatal fault ends with a stop that the decoder is too
busy for. -/
theorem teardown_postponed : (teardown device).Ends (p, d) (fun _ _ => True) fun e t =>
    e.isFatal = true ∨
      ∃ d', (device.call .stop d').1 = .error .busy ∧ t.2 = (device.call .stop d').2 := by
  simp only [teardown, retryReturns, ends_bind, ends_get]
  -- up to the stop every fault is fatal, in both loops
  have hheld : ((p.outputs.slotsIn .holdingOutput).forM fun slot =>
      returnOutput device slot .release).Ends (p, d) (fun _ _ => True)
        fun e _ => e.isFatal = true :=
    ends_forM_faults (fun slot => returnOutput_fatal slot .release) _ _
  refine hheld.imp ?_ fun _ _ he => Or.inl he
  rintro _ ⟨p', d'⟩ -
  have hreturn (entry : Nat × ReturnKind) (t : Pipeline × δ) :
      (finishReturn device entry.1 .release).Ends t (fun _ _ => True) fun e _ => e.isFatal = true :=
    finishReturn_fatal entry.1 .release t
  have hdeferred := ends_forM_faults hreturn p'.deferred ({ p' with deferred := [] }, d')
  refine hdeferred.imp ?_ fun _ _ he => Or.inl he
  rintro _ ⟨p'', d''⟩ -
  simp only [ends_ite, ends_bind, ends_update]
  split
  -- the stop is the only call whose answer may be that the decoder is busy
  · refine ends_demand _ (fun _ => trivial) ?_
    intro e he
    cases e with
    | busy => exact Or.inr ⟨d'', he, rfl⟩
    | failed text => exact Or.inl rfl
  · trivial

/-- A decoder that starts has nothing to wait for. -/
theorem configure_heeds (format : MediaFormat) (onSurface : Bool) (track : Nat) :
    (configure device format onSurface).Ends ({ track }, d) (fun _ t => ∀ armed, t.1.Heeded armed)
      fun _ _ => True := by
  apply ends_configure
  · intro _ _ armed
    exact ⟨fun hne => absurd rfl hne, fun hne => absurd rfl hne⟩
  · intro _
    trivial
  · intro _
    trivial

end Operations

end Playout.Pipeline
