import Playout.Proofs.Action

/-!
# Two runs in lockstep

`a.Lockstep R` says of the action `a` that two runs of it from states related by `R` end in the same
way, both with the same answer or both in the same fault, and leave states related by `R`. The
lemmas of this module compute it along the structure of an action, as those of `Ends` compute where
a single run ends.

With a relation that pins a part of both states down, a lockstep also says that the action leaves
this part alone.
-/

namespace Playout.Action

variable {σ τ α β : Type} {R : σ → σ → Prop}

/-- Two runs have ended in the same way, and in related states. -/
def SameEnd (R : σ → σ → Prop) : EStateM.Result Fault σ α → EStateM.Result Fault σ α → Prop
  | .ok x s, .ok y t => x = y ∧ R s t
  | .error e s, .error f t => e = f ∧ R s t
  | _, _ => False

/-- From related states the action ends in the same way, and in related states. -/
def Lockstep (a : Action σ α) (R : σ → σ → Prop) : Prop := ∀ s t, R s t → SameEnd R (a s) (a t)

theorem SameEnd.cases {r r' : EStateM.Result Fault σ α} (h : SameEnd R r r') :
    (∃ x s t, r = .ok x s ∧ r' = .ok x t ∧ R s t) ∨
      ∃ e s t, r = .error e s ∧ r' = .error e t ∧ R s t := by
  unfold SameEnd at h
  split at h
  · obtain ⟨rfl, hR⟩ := h
    exact Or.inl ⟨_, _, _, rfl, rfl, hR⟩
  · obtain ⟨rfl, hR⟩ := h
    exact Or.inr ⟨_, _, _, rfl, rfl, hR⟩
  · exact h.elim

/-- What follows on two runs that have ended in the same way ends in the same way. -/
theorem SameEnd.bind {a b : Action σ α} {f g : α → Action σ β} {s t : σ}
    (h : SameEnd R (a s) (b t)) (hfollow : ∀ x s t, R s t → SameEnd R (f x s) (g x t)) :
    SameEnd R ((a >>= f) s) ((b >>= g) t) := by
  show SameEnd R (EStateM.bind a f s) (EStateM.bind b g t)
  unfold EStateM.bind
  obtain ⟨x, s', t', ha, hb, hR⟩ | ⟨e, s', t', ha, hb, hR⟩ := h.cases
  · rw [ha, hb]
    exact hfollow x s' t' hR
  · rw [ha, hb]
    exact ⟨rfl, hR⟩

theorem lockstep_pure (x : α) : (pure x : Action σ α).Lockstep R := fun _ _ h => ⟨rfl, h⟩

theorem lockstep_throw (e : Fault) : (throw e : Action σ α).Lockstep R := fun _ _ h => ⟨rfl, h⟩

theorem Lockstep.bind {a : Action σ α} {f : α → Action σ β} (ha : a.Lockstep R)
    (hf : ∀ x, (f x).Lockstep R) : (a >>= f).Lockstep R :=
  fun s t h => (ha s t h).bind fun x => hf x

theorem get_bind_apply (f : σ → Action σ α) (s : σ) : (get >>= f) s = f s s := rfl

/-- What is done after a look at the state may depend on what is the same in related states. -/
theorem lockstep_get_bind {f : σ → Action σ α} (hf : ∀ s t, R s t → f s = f t)
    (h : ∀ s, (f s).Lockstep R) : (get >>= f).Lockstep R := by
  intro s t hR
  rw [get_bind_apply, get_bind_apply, ← hf s t hR]
  exact h s s t hR

theorem lockstep_ofExcept (r : Except Fault α) : (ofExcept r : Action σ α).Lockstep R := by
  cases r with
  | ok x => exact lockstep_pure x
  | error e => exact lockstep_throw e

theorem lockstep_use {f : σ → α × σ} (h : ∀ s t, R s t → (f s).1 = (f t).1 ∧ R (f s).2 (f t).2) :
    (use f).Lockstep R := h

theorem lockstep_ite {c : Prop} [Decidable c] {a b : Action σ α} (ha : a.Lockstep R)
    (hb : b.Lockstep R) : (if c then a else b).Lockstep R := by
  split
  · exact ha
  · exact hb

theorem lockstep_forM {ι : Type} {f : ι → Action σ PUnit} (h : ∀ i, (f i).Lockstep R)
    (items : List ι) : (items.forM f).Lockstep R := by
  induction items with
  | nil => exact lockstep_pure _
  | cons i rest ih => exact (h i).bind fun _ => ih

/-- An action on a part of the state, if the parts are related and can be put back. -/
theorem Lockstep.focus {T : τ → τ → Prop} {get : σ → τ} {put : τ → σ → σ} {a : Action τ α}
    (ha : a.Lockstep T) (hget : ∀ s t, R s t → T (get s) (get t))
    (hput : ∀ s t, R s t → ∀ x y, T x y → R (put x s) (put y t)) :
    (focus get put a).Lockstep R := by
  intro s t hR
  unfold Action.focus
  obtain ⟨x, s', t', hs, ht, hT⟩ | ⟨e, s', t', hs, ht, hT⟩ := (ha _ _ (hget s t hR)).cases
  · rw [hs, ht]
    exact ⟨rfl, hput s t hR s' t' hT⟩
  · rw [hs, ht]
    exact ⟨rfl, hput s t hR s' t' hT⟩

/-- Wherever the action ends, it leaves related states. -/
theorem Lockstep.stateAfter {a : Action σ α} (ha : a.Lockstep R) {s t : σ} (h : R s t) :
    R (a.stateAfter s) (a.stateAfter t) := by
  unfold Action.stateAfter
  obtain ⟨x, s', t', hs, ht, hR⟩ | ⟨e, s', t', hs, ht, hR⟩ := (ha s t h).cases
  · rw [hs, ht]
    exact hR
  · rw [hs, ht]
    exact hR

end Playout.Action
