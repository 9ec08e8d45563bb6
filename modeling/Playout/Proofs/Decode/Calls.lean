import Playout.Proofs.Decode.Returns

/-!
# What a decoder is told

What holds of a decoder's world after an operation follows from the calls that the operation makes.
For each operation there is a lemma that asks for no more than these calls: what they keep, the
operation keeps, whether it ends well or not. Those that feed the decoder are in
`Playout.Proofs.Decode.Returns`.
-/

namespace Playout.Pipeline

open Playout.Action

variable {δ : Type} {I : δ → Prop} {device : DecoderDevice δ}

/-- The call, made by the decoder of `device`, keeps `I`. -/
def CallKeeps (device : DecoderDevice δ) (I : δ → Prop) (c : DecoderCall) : Prop :=
  ∀ d, I d → I (device.call c d).2

theorem Spares.keeps {α : Type} {a : Step δ α} (h : Spares I a) : a.Keeps fun t => I t.2 := by
  intro t ht
  exact (h t.1.deferred t ⟨rfl, ht⟩).imp (fun _ _ hr => hr.2) fun _ _ hr => hr.2

theorem demand_calls {c : DecoderCall} (hc : CallKeeps device I c) :
    (demand device c).Keeps fun t => I t.2 := by
  rintro ⟨p, d⟩ h
  exact ends_demand c (fun _ => hc d h) fun _ _ => hc d h

/-- The returns that are to be offered keep `I`, and so does offering them. -/
theorem takesBack_calls : TakesBack device
    (fun rest t => (∀ entry ∈ rest, CallKeeps device I (entry.2.call entry.1)) ∧ I t.2)
    fun _ t => I t.2 where
  taken _ _ _ _ _ _ _ h := ⟨(List.forall_mem_cons.mp h.1).2, (List.forall_mem_cons.mp h.1).1 _ h.2⟩
  deferred _ _ _ _ _ _ h := ⟨(List.forall_mem_cons.mp h.1).2, (List.forall_mem_cons.mp h.1).1 _ h.2⟩
  refused _ _ _ _ _ _ _ h := (List.forall_mem_cons.mp h.1).1 _ h.2
  misused _ _ _ _ _ _ _ _ _ h := (List.forall_mem_cons.mp h.1).1 _ h.2

/-- Finishing a return is one call. -/
theorem finishReturn_calls {slot : Nat} (kind : ReturnKind)
    (hc : CallKeeps device I (kind.call slot)) :
    (finishReturn device slot kind).Keeps fun t => I t.2 := by
  intro t h
  have honly : ∀ entry ∈ [(slot, kind)], CallKeeps device I (entry.2.call entry.1) := by
    intro entry hentry
    rw [List.mem_singleton.mp hentry]
    exact hc
  exact (takesBack_calls.finishReturn slot kind [] ⟨honly, h⟩).imp (fun _ _ ht => ht.2)
    fun _ _ ht => ht

/-- So is returning a slot. -/
theorem returnOutput_calls {slot : Nat} (kind : ReturnKind)
    (hc : CallKeeps device I (kind.call slot)) :
    (returnOutput device slot kind).Keeps fun t => I t.2 := by
  rintro ⟨p, d⟩ h
  simp only [returnOutput, ends_bind]
  exact ends_moveOutput_or (fun _ => finishReturn_calls kind hc _ h) fun _ => h

/-- A call for each deferred return. -/
theorem retryReturns_calls (kindOf : ReturnKind → ReturnKind) {t : Pipeline × δ}
    (hc : ∀ entry ∈ t.1.deferred, CallKeeps device I ((kindOf entry.2).call entry.1))
    (h : I t.2) :
    (retryReturns device kindOf).Ends t (fun _ t => I t.2) fun _ t => I t.2 := by
  obtain ⟨p, d⟩ := t
  have hall : ∀ entry ∈ p.deferred.map fun entry => (entry.1, kindOf entry.2),
      CallKeeps device I (entry.2.call entry.1) := by
    intro entry hentry
    obtain ⟨deferred, hmem, rfl⟩ := List.mem_map.mp hentry
    exact hc deferred hmem
  exact (takesBack_calls.retryReturns kindOf ⟨hall, h⟩).imp (fun _ _ ht => ht.2) fun _ _ ht => ht

/-- The deferred returns with their own kinds, and units that are fed. -/
theorem retry_calls {t : Pipeline × δ}
    (hinput : ∀ slot unit, CallKeeps device I (.queueInput slot unit))
    (hc : ∀ entry ∈ t.1.deferred, CallKeeps device I (entry.2.call entry.1)) (h : I t.2) :
    (retry device).Ends t (fun _ t => I t.2) fun _ t => I t.2 := by
  simp only [retry, ends_bind]
  exact (retryReturns_calls id hc h).imp
    (fun _ t ht => (fillInputs_spares hinput).keeps t ht) fun _ _ ht => ht

/-- Configuring and starting are one call each. -/
theorem configure_calls {format : MediaFormat} {onSurface : Bool}
    (hconfigure : CallKeeps device I (.configure format onSurface))
    (hstart : CallKeeps device I .start) :
    (configure device format onSurface).Keeps fun t => I t.2 := by
  intro t h
  simp only [configure, ends_bind]
  refine (demand_calls hconfigure t h).imp (fun _ t h => ?_) fun _ _ h => h
  exact (demand_calls hstart t h).imp (fun _ _ h => h) fun _ _ h => h

/-- A teardown presents nothing. -/
theorem teardown_calls (hrelease : ∀ slot, CallKeeps device I (.releaseOutput slot))
    (hstop : CallKeeps device I .stop) (hfree : CallKeeps device I .release) :
    (teardown device).Keeps fun t => I t.2 := by
  rintro ⟨p, d⟩ h
  simp only [teardown, ends_bind, ends_get]
  -- the slots that are held, then the deferred returns, and at last the stop
  refine (ends_forM (I := fun _ t => I t.2) (E := fun _ t => I t.2)
    (fun slot _ t ht => returnOutput_calls .release (hrelease slot) t ht)
    (p.outputs.slotsIn .holdingOutput) h).imp (fun _ t ht => ?_) fun _ _ ht => ht
  refine (retryReturns_calls (fun _ => .release)
    (fun entry _ => hrelease entry.1) ht).imp (fun _ t ht => ?_) fun _ _ ht => ht
  obtain ⟨p', d'⟩ := t
  simp only [ends_update, ends_bind, ends_ite, ends_pure, ends_tell]
  split
  · refine (demand_calls hstop).ends ht ?_ fun _ _ ht => ht
    rintro _ ⟨p'', d''⟩ ht
    exact hfree d'' ht
  · exact hfree d' ht

end Playout.Pipeline
