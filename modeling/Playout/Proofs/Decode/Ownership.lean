import Playout.Proofs.Decode.Parts

/-!
# Output slots on their way back

A renderer owns the output slots that it was handed until it returns them, and the pipeline
owns a returned slot until the decoder takes it back. `Pipeline.Sound p held offered` says that
the table of the pipeline agrees: the slots in `held` are with a renderer, and the deferred ones
and those in `offered` are on their way back, each of them once.

Every operation keeps this, and with it a slot that is held can always be returned: what may go
wrong is the decoder alone. What the calls of the decoder do to the rest of the world is a
parameter, `Follows`.
-/

namespace Playout

/-- Calls that neither prepare a decoder nor end it. -/
def DecoderCall.Quiet : DecoderCall → Prop
  | .queueInput .. | .releaseOutput _ | .renderOutput _ => True
  | _ => False

theorem ReturnKind.call_quiet (kind : ReturnKind) (slot : Nat) : (kind.call slot).Quiet := by
  cases kind <;> trivial

/-- What the calls of a decoder do: the quiet ones keep `I`, and a refused one leads to `Bad`. -/
structure DecoderDevice.Follows {δ : Type} (device : DecoderDevice δ) (I Bad : δ → Prop) :
    Prop where
  quiet : ∀ c d, c.Quiet → I d → I (device.call c d).2
  refused : ∀ c d e, (device.call c d).1 = .error e → Bad (device.call c d).2

namespace Pipeline

open Playout.Action

variable {δ : Type}

/-- The table agrees with what a renderer holds and with what is on its way back. -/
structure Sound (p : Pipeline) (held offered : List Nat) : Prop where
  started : p.started = true
  held_nodup : held.Nodup
  held_state : p.outputs.AllIn .holdingOutput held
  returning_nodup : (offered ++ p.deferred.map (·.1)).Nodup
  returning_state : p.outputs.AllIn .returning (offered ++ p.deferred.map (·.1))

/-- A renderer holds `held`, and the rest of the world is in `I`. -/
def Owns (I : δ → Prop) (held : List Nat) (t : Pipeline × δ) : Prop :=
  t.1.Sound held [] ∧ I t.2

namespace Sound

variable {p p' : Pipeline} {held held' offered : List Nat} {slot : Nat}

/-- Only the output slots matter. -/
theorem congr (h : p.Sound held offered) (hstarted : p'.started = p.started)
    (houtputs : p'.outputs = p.outputs) (hdeferred : p'.deferred = p.deferred) :
    p'.Sound held offered where
  started := hstarted.trans h.started
  held_nodup := h.held_nodup
  held_state := houtputs ▸ h.held_state
  returning_nodup := hdeferred ▸ h.returning_nodup
  returning_state := by rw [houtputs, hdeferred]; exact h.returning_state

theorem perm (h : p.Sound held offered) (hperm : held.Perm held') : p.Sound held' offered :=
  { h with
    held_nodup := hperm.nodup_iff.mp h.held_nodup
    held_state := fun i hi => h.held_state i (hperm.mem_iff.mpr hi) }

/-- Slots that are offered in vain stay on their way back. -/
theorem drop_offered (h : p.Sound held offered) : p.Sound held [] :=
  { h with
    returning_nodup := (List.nodup_append.mp h.returning_nodup).2.1
    returning_state := fun i hi => h.returning_state i (List.mem_append_right _ hi) }

/-- A held slot starts on its way back. -/
theorem giveBack (h : p.Sound (slot :: held) offered) :
    { p with outputs := p.outputs.put slot .returning }.Sound held (slot :: offered) := by
  have hslot := h.held_state slot List.mem_cons_self
  have hrest : p.outputs.AllIn .holdingOutput held := fun i hi =>
    h.held_state i (List.mem_cons_of_mem _ hi)
  obtain ⟨hnot, hnodup⟩ := List.nodup_cons.mp h.held_nodup
  have hfresh := h.returning_state.not_mem hslot (by decide)
  exact ⟨h.started, hnodup, hrest.put hnot _, List.nodup_cons.mpr ⟨hfresh, h.returning_nodup⟩,
    h.returning_state.put_cons hslot (by decide)⟩

/-- The decoder takes a slot back. -/
theorem taken (h : p.Sound held (slot :: offered)) :
    { p with outputs := p.outputs.put slot .pending }.Sound held offered := by
  have hslot := h.returning_state slot (by simp)
  have hrest : p.outputs.AllIn .returning (offered ++ p.deferred.map (·.1)) := fun i hi =>
    h.returning_state i (List.mem_cons_of_mem _ hi)
  obtain ⟨hnot, hnodup⟩ := List.nodup_cons.mp h.returning_nodup
  exact ⟨h.started, h.held_nodup, h.held_state.put (h.held_state.not_mem hslot (by decide)) _,
    hnodup, hrest.put hnot _⟩

/-- The decoder is too busy for a slot, which is deferred. -/
theorem defer (h : p.Sound held (slot :: offered)) (kind : ReturnKind) :
    { p with deferred := p.deferred ++ [(slot, kind)], retryNeeded := true }.Sound held
      offered := by
  have hperm : (offered ++ (p.deferred ++ [(slot, kind)]).map (·.1)).Perm
      (slot :: offered ++ p.deferred.map (·.1)) := by
    rw [List.map_append, ← List.append_assoc]
    exact List.perm_append_singleton _ _
  refine ⟨h.started, h.held_nodup, h.held_state, hperm.nodup_iff.mpr h.returning_nodup,
    fun i hi => h.returning_state i (hperm.mem_iff.mp hi)⟩

/-- The decoder hands a slot out. -/
theorem handOut (h : p.Sound held offered) (hslot : p.outputs.state? slot = some .pending) :
    { p with outputs := p.outputs.put slot .holdingOutput }.Sound (slot :: held) offered := by
  have hheld := h.held_state.not_mem hslot (by decide)
  have hoffered := h.returning_state.not_mem hslot (by decide)
  exact ⟨h.started, List.nodup_cons.mpr ⟨hheld, h.held_nodup⟩,
    h.held_state.put_cons hslot (by decide), h.returning_nodup, h.returning_state.put hoffered _⟩

end Sound

/-! ## Operations -/

section Operations

variable {device : DecoderDevice δ} {I Bad : δ → Prop}

/-- Feeding is about inputs alone, so what is held stays so. -/
theorem feeds_owns (hdevice : device.Follows I Bad) (held : List Nat) :
    Feeds device (Owns I held) fun _ t => Owns I held t where
  filled _ d _ _ _ _ _ _ _ h := ⟨h.1.congr rfl rfl rfl, hdevice.quiet _ d trivial h.2⟩
  busy _ d _ _ _ _ _ _ h := ⟨h.1.congr rfl rfl rfl, hdevice.quiet _ d trivial h.2⟩
  refused _ d _ _ _ _ _ _ _ h := ⟨h.1, hdevice.quiet _ d trivial h.2⟩
  misused _ d _ _ _ _ _ _ _ _ _ h := ⟨h.1, hdevice.quiet _ d trivial h.2⟩

theorem fillInputs_keeps (hdevice : device.Follows I Bad) {held : List Nat} :
    (fillInputs device).Keeps (Owns I held) := by
  intro t h
  exact ((feeds_owns hdevice held).fillInputs h).imp (fun _ _ ht => ht.1) fun _ _ ht => ht

theorem submit_keeps (hdevice : device.Follows I Bad) {held : List Nat} (unit : AccessUnit) :
    (submit device unit).Keeps (Owns I held) := by
  rintro ⟨p, d⟩ h
  simp only [submit, ends_bind, ends_update]
  exact fillInputs_keeps hdevice _ ⟨h.1.congr rfl rfl rfl, h.2⟩

theorem inputsAvailable_keeps (hdevice : device.Follows I Bad) {held : List Nat}
    (slots : List Nat) : (inputsAvailable device slots).Keeps (Owns I held) := by
  intro t h
  simp only [inputsAvailable, ends_bind]
  refine (ends_forM (I := fun _ t => Owns I held t) (fun slot _ t ht => ?_) slots h).imp
    (fun _ t ht => fillInputs_keeps hdevice t ht) fun _ _ ht => ht
  simp only [ends_bind]
  exact ends_moveInput (fun _ => ⟨ht.1.congr rfl rfl rfl, ht.2⟩) fun _ _ _ => ht

/-- The slot that is handed out is held from then on. -/
theorem outputReady_ends {held : List Nat} {t : Pipeline × δ} (h : Owns I held t) (slot : Nat)
    (pts : Int) (payload : List UInt8) :
    (outputReady slot pts payload : Step δ DecodedOutput).Ends t
      (fun output t => Owns I (output.slot :: held) t) fun _ t => Owns I held t := by
  simp only [outputReady, ends_bind, ends_pure]
  exact ends_moveOutput_or (fun hslot => ⟨h.1.handOut hslot, h.2⟩) fun _ => h

/-- An offered slot is taken back or deferred, or the decoder refuses. -/
theorem takesBack_owns (hdevice : device.Follows I Bad) (held : List Nat) :
    TakesBack device (fun offered t => t.1.Sound held (offered.map (·.1)) ∧ I t.2)
      fun _ t => Owns I held t ∧ Bad t.2 where
  taken _ d slot kind _ _ _ h := ⟨h.1.taken, hdevice.quiet _ d (kind.call_quiet slot) h.2⟩
  deferred _ d slot kind _ _ h := ⟨h.1.defer kind, hdevice.quiet _ d (kind.call_quiet slot) h.2⟩
  refused _ d slot kind _ _ hanswer h :=
    ⟨⟨h.1.drop_offered, hdevice.quiet _ d (kind.call_quiet slot) h.2⟩,
      hdevice.refused _ d _ hanswer⟩
  misused _ _ slot _ _ _ _ _ hother h := absurd (h.1.returning_state slot (by simp)) hother

/-- A held slot can be returned; only the decoder may refuse it. -/
theorem returnOutput_ends (hdevice : device.Follows I Bad) {t : Pipeline × δ} {held : List Nat}
    {slot : Nat} (h : Owns I (slot :: held) t) (kind : ReturnKind) :
    (returnOutput device slot kind).Ends t (fun _ t => Owns I held t)
      fun _ t => Owns I held t ∧ Bad t.2 := by
  simp only [returnOutput, ends_bind]
  apply ends_moveOutput _ _ (h.1.held_state slot List.mem_cons_self)
  exact (takesBack_owns hdevice held).finishReturn slot kind [] ⟨h.1.giveBack, h.2⟩

/-- The deferred returns are taken out and offered one after the other. -/
theorem retryReturns_ends (hdevice : device.Follows I Bad) {t : Pipeline × δ} {held : List Nat}
    (h : Owns I held t) (kindOf : ReturnKind → ReturnKind) :
    (retryReturns device kindOf).Ends t (fun _ t => Owns I held t)
      fun _ t => Owns I held t ∧ Bad t.2 := by
  obtain ⟨p, d⟩ := t
  -- nothing is deferred any more: the loop offers the slots one by one, and defers some again
  apply (takesBack_owns hdevice held).retryReturns
  refine ⟨⟨h.1.started, h.1.held_nodup, h.1.held_state, ?_, ?_⟩, h.2⟩
  · simpa [Function.comp_def] using h.1.returning_nodup
  · simpa [Function.comp_def] using h.1.returning_state

/-- A retry offers what is deferred, and feeds. -/
theorem retry_keeps (hdevice : device.Follows I Bad) {held : List Nat} :
    (retry device).Keeps (Owns I held) := by
  intro t h
  simp only [retry, ends_bind]
  exact (retryReturns_ends hdevice h id).imp (fun _ t ht => fillInputs_keeps hdevice t ht)
    fun _ _ ht => ht.1

/-- A decoder that is configured and started holds all of its slots. -/
theorem configure_ends (format : MediaFormat) (onSurface : Bool) (track : Nat) (d : δ) :
    (configure device format onSurface).Ends ({ track }, d)
      (fun _ t => t.1.Sound [] [] ∧
        t.2 = (device.call .start (device.call (.configure format onSurface) d).2).2 ∧
        (device.call .start (device.call (.configure format onSurface) d).2).1 = .ok ())
      fun _ t => t.2 = (device.call (.configure format onSurface) d).2 ∨
        t.2 = (device.call .start (device.call (.configure format onSurface) d).2).2 ∧
        (device.call .start (device.call (.configure format onSurface) d).2).1 ≠ .ok () := by
  simp only [configure, ends_bind]
  refine ends_demand _ (fun _ => ?_) fun e _ => Or.inl rfl
  refine ends_demand _ (fun hstart => ?_) fun e hstart => Or.inr ⟨rfl, by simp [hstart]⟩
  refine ⟨⟨rfl, List.nodup_nil, ?_, List.nodup_nil, ?_⟩, rfl, hstart⟩ <;> simp [SlotTable.AllIn]

/-- Whatever is held, the slots can be returned and the decoder stopped and released; if not, the
decoder refused. -/
theorem teardown_ends (hdevice : device.Follows I Bad) {t : Pipeline × δ} {held : List Nat}
    (h : Owns I held t) :
    (teardown device).Ends t
      (fun _ t => ∃ d, I d ∧ (device.call .stop d).1 = .ok () ∧
        t.2 = (device.call .release (device.call .stop d).2).2)
      fun _ t => I t.2 ∧ Bad t.2 ∨ ∃ d, I d ∧ t.2 = (device.call .stop d).2 ∧ Bad t.2 := by
  obtain ⟨p, d⟩ := t
  simp only [teardown, ends_bind, ends_get]
  -- what is held is read off the table here, so that `held` may be anything
  refine (ends_forM (I := fun rest t => Owns I rest t)
    (E := fun _ t => I t.2 ∧ Bad t.2) ?_ (p.outputs.slotsIn .holdingOutput) ⟨?_, h.2⟩).imp
    (fun _ t ht => ?_) fun _ _ ht => Or.inl ht
  · intro slot rest t ht
    exact (returnOutput_ends hdevice ht .release).imp (fun _ _ ht => ht)
      fun _ _ ht => ⟨ht.1.2, ht.2⟩
  · exact { h.1 with
      held_nodup := SlotTable.slotsIn_nodup _ _
      held_state := SlotTable.slotsIn_allIn _ _ }
  · refine (retryReturns_ends hdevice ht _).imp (fun _ t ht => ?_)
      fun _ _ ht => Or.inl ⟨ht.1.2, ht.2⟩
    obtain ⟨p', d⟩ := t
    have hstarted : p.started = true := h.1.started
    simp only [ends_bind, ends_update, hstarted, if_true]
    -- a decoder that refuses to stop is not released
    refine ends_demand _ (fun hok => ⟨d, ht.2, hok, rfl⟩) fun e he => Or.inr ⟨d, ht.2, rfl, ?_⟩
    exact hdevice.refused _ d e he

end Operations

end Pipeline

end Playout
