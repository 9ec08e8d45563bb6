import Playout.Proofs.Decode.Ownership

/-!
# Who can misuse a slot

`Pipeline.Exact p held offered` says more than `Sound`: the slots in `held` are all that are with
a renderer, and the input slots that wait to be filled are free, each of them once. A pipeline
that is `Exact` stays so, and what it does by itself never misuses a slot:

    returnOutput_passes      a held slot can be returned
    retry_careful            a deferred return can be offered again
    fillInputs_careful       a waiting input slot can be filled

There are two ways left. The decoder may hand out an output slot that it does not own, and it may
give an input slot that it does not own. `outputReady_exact` and `inputsAvailable_exact` say that
the fault then names this slot.
-/

namespace Playout

/-- The fault is a misuse of a slot. -/
def Fault.IsMisuse : Fault → Prop
  | .slotMisuse .. => True
  | _ => False

namespace Pipeline

open Playout.Action

variable {δ : Type}

/-- What is held is all that a renderer holds, and the inputs that wait are free. -/
structure Exact (p : Pipeline) (held offered : List Nat) : Prop extends Sound p held offered where
  held_all : ∀ i, p.outputs.state? i = some .holdingOutput → i ∈ held
  free_nodup : p.freeInputs.Nodup
  free_state : p.inputs.AllIn .free p.freeInputs

/-- The action keeps every slot in its place, and if it fails, then not because of a slot. -/
def Careful {α : Type} (a : Step δ α) : Prop :=
  ∀ held t, t.1.Exact held [] →
    a.Ends t (fun _ t => t.1.Exact held []) fun e t => t.1.Exact held [] ∧ ¬ e.IsMisuse

namespace Exact

variable {p p' : Pipeline} {held held' offered : List Nat} {slot : Nat}

theorem congr (h : p.Exact held offered) (hstarted : p'.started = p.started)
    (houtputs : p'.outputs = p.outputs) (hdeferred : p'.deferred = p.deferred)
    (hinputs : p'.inputs = p.inputs) (hfree : p'.freeInputs = p.freeInputs) :
    p'.Exact held offered where
  toSound := h.toSound.congr hstarted houtputs hdeferred
  held_all := by rw [houtputs]; exact h.held_all
  free_nodup := by rw [hfree]; exact h.free_nodup
  free_state := by rw [hinputs, hfree]; exact h.free_state

theorem perm (h : p.Exact held offered) (hperm : held.Perm held') : p.Exact held' offered where
  toSound := h.toSound.perm hperm
  held_all i hi := hperm.mem_iff.mp (h.held_all i hi)
  free_nodup := h.free_nodup
  free_state := h.free_state

theorem drop_offered (h : p.Exact held offered) : p.Exact held [] where
  toSound := h.toSound.drop_offered
  held_all := h.held_all
  free_nodup := h.free_nodup
  free_state := h.free_state

/-- A slot with another owner than a renderer is not among those that a renderer holds. -/
theorem mem_of_put {t : SlotTable} {s : SlotState} {i : Nat} (hs : s ≠ .holdingOutput)
    (hall : ∀ i, t.state? i = some .holdingOutput → i ∈ slot :: held)
    (hi : (t.put slot s).state? i = some .holdingOutput) : i ∈ held := by
  have hne : i ≠ slot := by
    rintro rfl
    by_cases hlt : i < t.states.length
    · simp [SlotTable.state?, SlotTable.put, hlt, hs] at hi
    · simp [SlotTable.state?, SlotTable.put, hlt] at hi
  rw [SlotTable.state?_put_of_ne hne] at hi
  rcases List.mem_cons.mp (hall i hi) with heq | hmem
  · exact absurd heq hne
  · exact hmem

/-- A held slot starts on its way back. -/
theorem giveBack (h : p.Exact (slot :: held) offered) :
    { p with outputs := p.outputs.put slot .returning }.Exact held (slot :: offered) where
  toSound := h.toSound.giveBack
  held_all _ hi := mem_of_put (by decide) h.held_all hi
  free_nodup := h.free_nodup
  free_state := h.free_state

/-- A slot on its way back is taken. -/
theorem taken (h : p.Exact held (slot :: offered)) :
    { p with outputs := p.outputs.put slot .pending }.Exact held offered where
  toSound := h.toSound.taken
  held_all _ hi := mem_of_put (by decide) (fun i hi => List.mem_cons_of_mem _ (h.held_all i hi)) hi
  free_nodup := h.free_nodup
  free_state := h.free_state

/-- A slot on its way back is put off. -/
theorem defer (h : p.Exact held (slot :: offered)) (kind : ReturnKind) :
    { p with deferred := p.deferred ++ [(slot, kind)], retryNeeded := true }.Exact held
      offered where
  toSound := h.toSound.defer kind
  held_all := h.held_all
  free_nodup := h.free_nodup
  free_state := h.free_state

/-- A slot of the decoder is handed out. -/
theorem handOut (h : p.Exact held offered) (hslot : p.outputs.state? slot = some .pending) :
    { p with outputs := p.outputs.put slot .holdingOutput }.Exact (slot :: held) offered where
  toSound := h.toSound.handOut hslot
  held_all i hi := by
    -- the new slot is the one in front, and all others are where they were
    by_cases heq : i = slot
    · rw [heq]
      exact List.mem_cons_self
    · dsimp only at hi
      rw [SlotTable.state?_put_of_ne heq] at hi
      exact List.mem_cons_of_mem _ (h.held_all i hi)
  free_nodup := h.free_nodup
  free_state := h.free_state

/-- The input slot in front is filled. -/
theorem fill {rest : List Nat} (h : p.Exact held offered) (hfree : p.freeInputs = slot :: rest)
    (units : List AccessUnit) :
    { p with
      inputs := p.inputs.put slot .pending, freeInputs := rest, pendingUnits := units }.Exact
      held offered := by
  have hnodup := h.free_nodup
  have hstate := h.free_state
  rw [hfree] at hnodup hstate
  obtain ⟨hnot, hrest⟩ := List.nodup_cons.mp hnodup
  have hall : p.inputs.AllIn .free rest := fun i hi => hstate i (List.mem_cons_of_mem _ hi)
  exact ⟨h.toSound.congr rfl rfl rfl, h.held_all, hrest, hall.put hnot _⟩

/-- The decoder gives an input slot that it owns. -/
theorem give (h : p.Exact held offered) (hslot : p.inputs.state? slot = some .pending) :
    { p with
      inputs := p.inputs.put slot .free, freeInputs := p.freeInputs ++ [slot] }.Exact
      held offered := by
  have hperm : (p.freeInputs ++ [slot]).Perm (slot :: p.freeInputs) :=
    List.perm_append_singleton _ _
  have hfresh := h.free_state.not_mem hslot (by decide)
  refine ⟨h.toSound.congr rfl rfl rfl, h.held_all, ?_, ?_⟩
  · exact hperm.nodup_iff.mpr (List.nodup_cons.mpr ⟨hfresh, h.free_nodup⟩)
  · intro i hi
    exact h.free_state.put_cons hslot (by decide) i (hperm.mem_iff.mp hi)

end Exact

/-! ## Operations -/

section Operations

variable {device : DecoderDevice δ}

/-- Only a free slot is filled, so feeding misuses none. -/
theorem feeds_exact (held : List Nat) :
    Feeds device (fun t => t.1.Exact held []) fun e t => t.1.Exact held [] ∧ ¬ e.IsMisuse where
  filled _ _ _ _ _ units hfront _ _ h := h.fill hfront.slots units
  busy _ _ _ _ _ _ _ _ h := h.congr rfl rfl rfl rfl rfl
  refused _ _ _ _ _ _ _ _ _ h := ⟨h, id⟩
  misused p _ slot _ _ _ _ hfront _ _ hother h :=
    absurd (h.free_state slot (by rw [hfront.slots]; exact List.mem_cons_self)) hother

theorem fillInputs_careful : Careful (fillInputs device) := by
  intro held t h
  exact ((feeds_exact held).fillInputs h).imp (fun _ _ ht => ht.1) fun _ _ ht => ht

theorem submit_careful (unit : AccessUnit) : Careful (submit device unit) := by
  rintro held ⟨p, d⟩ h
  simp only [submit, ends_bind, ends_update]
  exact fillInputs_careful held _ (h.congr rfl rfl rfl rfl rfl)

/-- A slot is refused only if the decoder does not own it: because of its state, or because it
stands in the list already. -/
theorem inputsAvailable_exact {p : Pipeline} {held : List Nat} (h : p.Exact held [])
    (slots : List Nat) (d : δ) :
    (inputsAvailable device slots).Ends (p, d) (fun _ t => t.1.Exact held [])
      fun e t => t.1.Exact held [] ∧ ∀ track slot text, e = .slotMisuse track slot text →
        ∃ before after, slots = before ++ slot :: after ∧
          (slot ∈ before ∨ p.inputs.state? slot ≠ some .pending) := by
  simp only [inputsAvailable, ends_bind]
  have hentered := ends_enterAll (J := fun _ t => t.1.Exact held [])
    (fun _ _ _ _ hslot ht => ht.give hslot) slots (d := d) h
  -- if all slots are entered, the feeding that follows misuses none
  refine hentered.imp (fun _ t ht => ?_) fun e t ht => ⟨ht.1, ?_⟩
  · refine (fillInputs_careful held t ht).imp (fun _ _ ht => ht) fun e t ht => ⟨ht.1, ?_⟩
    intro track slot text heq
    rw [heq] at ht
    exact absurd trivial ht.2
  · intro track slot text heq
    obtain ⟨before, other, after, text', hslots, hmisplaced, -, he⟩ := ht.2
    rw [he] at heq
    cases heq
    exact ⟨before, after, hslots, hmisplaced⟩

/-- A slot is refused only if the decoder does not own it. -/
theorem outputReady_exact {p : Pipeline} {held : List Nat} (h : p.Exact held []) (slot : Nat)
    (pts : Int) (payload : List UInt8) (d : δ) :
    (outputReady slot pts payload : Step δ DecodedOutput).Ends (p, d)
      (fun output t => t.1.Exact (output.slot :: held) [] ∧ t.2 = d)
      fun e t => t.1.Exact held [] ∧ ∀ track other text, e = .slotMisuse track other text →
        other = slot ∧ p.outputs.state? slot ≠ some .pending := by
  simp only [outputReady, ends_bind, ends_pure]
  refine ends_moveOutput_named (fun hslot => ⟨h.handOut hslot, rfl⟩) fun _ _ hother => ⟨h, ?_⟩
  rintro track other text heq
  cases heq
  exact ⟨rfl, hother⟩

/-- Only a slot on its way back is taken, so offering misuses none. -/
theorem takesBack_exact (held : List Nat) :
    TakesBack device (fun offered t => t.1.Exact held (offered.map (·.1)))
      fun e t => t.1.Exact held [] ∧ ¬ e.IsMisuse where
  taken _ _ _ _ _ _ _ h := h.taken
  deferred _ _ _ kind _ _ h := h.defer kind
  refused _ _ _ _ _ _ _ h := ⟨h.drop_offered, id⟩
  misused _ _ slot _ _ _ _ _ hother h := absurd (h.returning_state slot (by simp)) hother

/-- A held slot can be returned. -/
theorem returnOutput_passes (kind : ReturnKind) :
    Passes (fun slot => returnOutput device slot kind) (fun held t => t.1.Exact held [])
      fun e _ => ¬ e.IsMisuse := by
  intro slot held t h
  simp only [returnOutput, ends_bind]
  apply ends_moveOutput _ _ (h.held_state slot List.mem_cons_self)
  exact (takesBack_exact held).finishReturn slot kind [] h.giveBack

/-- Offering the deferred returns once more is careful. -/
theorem retryReturns_careful (kindOf : ReturnKind → ReturnKind) :
    Careful (retryReturns device kindOf) := by
  intro held t h
  apply (takesBack_exact held).retryReturns
  refine ⟨⟨h.started, h.held_nodup, h.held_state, ?_, ?_⟩, h.held_all, h.free_nodup, h.free_state⟩
  · simpa [Function.comp_def] using h.returning_nodup
  · simpa [Function.comp_def] using h.returning_state

/-- So is a retry. -/
theorem retry_careful : Careful (retry device) := by
  intro held t h
  simp only [retry, ends_bind]
  refine (retryReturns_careful id held t h).imp (fun _ t ht => ?_) fun _ _ ht => ht
  exact fillInputs_careful held t ht

/-- A decoder that is configured and started holds all of its slots. -/
theorem configure_exact (format : MediaFormat) (onSurface : Bool) (track : Nat) (d : δ) :
    (configure device format onSurface).Ends ({ track }, d) (fun _ t => t.1.Exact [] [])
      fun e _ => ¬ e.IsMisuse := by
  refine ends_configure (fun d' _ => ?_) (fun e => id) fun e => id
  refine ⟨⟨rfl, List.nodup_nil, ?_, List.nodup_nil, ?_⟩, ?_, List.nodup_nil, ?_⟩
  · exact fun _ hi => absurd hi List.not_mem_nil
  · exact fun _ hi => absurd hi List.not_mem_nil
  · intro i hi
    cases SlotTable.state?_new hi
  · exact fun _ hi => absurd hi List.not_mem_nil

/-- Whatever is held, a teardown misuses no slot. -/
theorem teardown_innocent {p : Pipeline} {held : List Nat} (h : p.Exact held []) (d : δ) :
    (teardown device).Ends (p, d) (fun _ _ => True) fun e _ => ¬ e.IsMisuse := by
  simp only [teardown, ends_bind, ends_get]
  refine (ends_forM (I := fun rest t => t.1.Exact rest []) (E := fun e _ => ¬ e.IsMisuse) ?_
    (p.outputs.slotsIn .holdingOutput) ?_).imp (fun _ t ht => ?_) fun _ _ ht => ht
  · intro slot rest t ht
    exact (returnOutput_passes .release slot rest t ht).imp (fun _ _ ht => ht) fun _ _ ht => ht.2
  -- the table itself says what is held, each slot once
  · refine { h with
      held_nodup := SlotTable.slotsIn_nodup _ _
      held_state := SlotTable.slotsIn_allIn _ _
      held_all := fun i hi => ?_ }
    obtain ⟨hlt, -⟩ := List.getElem?_eq_some_iff.mp hi
    exact List.mem_filter.mpr ⟨List.mem_range.mpr hlt, beq_iff_eq.mpr hi⟩
  · refine (retryReturns_careful _ [] t ht).imp (fun _ t ht => ?_) fun _ _ ht => ht.2
    obtain ⟨p', d'⟩ := t
    have hstarted : p.started = true := h.started
    simp only [ends_bind, ends_update, hstarted, if_true]
    exact ends_demand _ (fun _ => trivial) fun e _ => id

end Operations

end Pipeline

end Playout
