import Playout.Proofs.Decode.Misuse

/-!
# What leaves the deferred returns alone

Feeding a decoder has nothing to do with the output slots on their way back. `Spares I a` says that
the action leaves the deferred returns as they are, and the decoder where `I` holds, which is about
everything but the feeding itself.
-/

namespace Playout.Pipeline

open Playout.Action

variable {δ α : Type} {I : δ → Prop} {device : DecoderDevice δ}

/-- The action leaves the deferred returns as they are, and keeps `I`. -/
def Spares (I : δ → Prop) (a : Step δ α) : Prop :=
  ∀ deferred, a.Keeps fun t => t.1.deferred = deferred ∧ I t.2

section Feeding

variable (hinput : ∀ slot unit d, I d → I (device.call (.queueInput slot unit) d).2)
include hinput

/-- Feeding does not touch the deferred returns. -/
theorem feeds_spares (deferred : List (Nat × ReturnKind)) :
    Feeds device (fun t => t.1.deferred = deferred ∧ I t.2)
      fun _ t => t.1.deferred = deferred ∧ I t.2 where
  filled _ _ _ _ _ _ _ _ _ h := ⟨h.1, hinput _ _ _ h.2⟩
  busy _ _ _ _ _ _ _ _ h := ⟨h.1, hinput _ _ _ h.2⟩
  refused _ _ _ _ _ _ _ _ _ h := ⟨h.1, hinput _ _ _ h.2⟩
  misused _ _ _ _ _ _ _ _ _ _ _ h := ⟨h.1, hinput _ _ _ h.2⟩

/-- Filling the free inputs spares them. -/
theorem fillInputs_spares : Spares I (fillInputs device) := by
  intro deferred t h
  exact ((feeds_spares hinput deferred).fillInputs h).imp (fun _ _ ht => ht.1) fun _ _ ht => ht

/-- So does submitting a unit. -/
theorem submit_spares (unit : AccessUnit) : Spares I (submit device unit) := by
  rintro deferred ⟨p, d⟩ h
  simp only [submit, ends_bind, ends_update]
  exact fillInputs_spares hinput deferred _ h

/-- So do input slots that come back, also when one of them is refused. -/
theorem inputsAvailable_spares (slots : List Nat) : Spares I (inputsAvailable device slots) := by
  rintro deferred ⟨p, d⟩ h
  simp only [inputsAvailable, ends_bind]
  apply (ends_enterAll (J := fun _ t => t.1.deferred = deferred ∧ I t.2) ?_ slots h).imp
  · intro _ t ht
    exact fillInputs_spares hinput deferred t ht
  · intro _ _ ht
    exact ht.1
  · intro _ _ _ _ _ ht
    exact ht

end Feeding

end Playout.Pipeline
