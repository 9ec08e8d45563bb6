import Playout.Fault

/-!
# Where an action ends

`a.Ends s Q E` says that the action `a`, run from the state `s`, ends well in a state and with an
answer that satisfy `Q`, or in a fault and a state that satisfy `E`. The lemmas of this module
compute it along the structure of an action, so that a statement about an operation becomes one
about the states that its parts go through. `Ends.imp` puts in what is known of a part already.
-/

namespace Playout.Action

variable {σ τ α β : Type}

/-- Run from `s`, the action ends well in `Q`, or in a fault in `E`. -/
def Ends (a : Action σ α) (s : σ) (Q : α → σ → Prop) (E : Fault → σ → Prop) : Prop :=
  match a s with
  | .ok x t => Q x t
  | .error e t => E e t

variable {s : σ} {Q : α → σ → Prop} {E : Fault → σ → Prop}

theorem ends_of_ok {a : Action σ α} {x : α} {t : σ} (h : a s = .ok x t) :
    a.Ends s Q E ↔ Q x t := by
  unfold Ends
  rw [h]

theorem ends_of_error {a : Action σ α} {e : Fault} {t : σ} (h : a s = .error e t) :
    a.Ends s Q E ↔ E e t := by
  unfold Ends
  rw [h]

/-- An action ends the way it does. -/
theorem ends_self (a : Action σ α) (s : σ) :
    a.Ends s (fun x t => a s = .ok x t) fun e t => a s = .error e t := by
  unfold Ends
  split
  · assumption
  · assumption

/-- An action that can end in one way only ends so. -/
theorem ends_eq_iff {a : Action σ α} {x : α} {t : σ} :
    a.Ends s (fun y t' => y = x ∧ t' = t) (fun _ _ => False) ↔ a s = .ok x t := by
  unfold Ends
  cases a s with
  | ok y t' => simp
  | error e t' => simp

instance (a : Action σ α) (s : σ) (Q : α → σ → Prop) (E : Fault → σ → Prop)
    [∀ x t, Decidable (Q x t)] [∀ e t, Decidable (E e t)] : Decidable (a.Ends s Q E) :=
  match h : a s with
  | .ok _ _ => decidable_of_iff _ (ends_of_ok h).symm
  | .error _ _ => decidable_of_iff _ (ends_of_error h).symm

theorem Ends.imp {a : Action σ α} {Q' : α → σ → Prop} {E' : Fault → σ → Prop}
    (h : a.Ends s Q E) (hQ : ∀ x t, Q x t → Q' x t) (hE : ∀ e t, E e t → E' e t) :
    a.Ends s Q' E' := by
  unfold Ends at h ⊢
  split at h
  · exact hQ _ _ h
  · exact hE _ _ h

/-- What is known of an action in two ways is known of it at once. -/
theorem Ends.and {a : Action σ α} {Q' : α → σ → Prop} {E' : Fault → σ → Prop}
    (h : a.Ends s Q E) (h' : a.Ends s Q' E') :
    a.Ends s (fun x t => Q x t ∧ Q' x t) (fun e t => E e t ∧ E' e t) := by
  unfold Ends at h h' ⊢
  split <;> simp_all

/-- An action that does not end well in `Q` ends outside of `Q`, if it ends well. -/
theorem ends_not {a : Action σ α} (h : ¬ a.Ends s Q fun _ _ => False) :
    a.Ends s (fun x t => ¬ Q x t) fun _ _ => True := by
  unfold Ends at h ⊢
  split <;> simp_all

theorem ends_of_forall {a : Action σ α} (hQ : ∀ x t, Q x t) (hE : ∀ e t, E e t) :
    a.Ends s Q E := by
  unfold Ends
  split
  · exact hQ _ _
  · exact hE _ _

@[simp] theorem ends_true (a : Action σ α) : a.Ends s (fun _ _ => True) fun _ _ => True :=
  ends_of_forall (fun _ _ => trivial) fun _ _ => trivial

/-! ## Along the structure of an action -/

@[simp] theorem ends_pure (x : α) : (pure x : Action σ α).Ends s Q E ↔ Q x s := Iff.rfl

@[simp] theorem ends_throw (e : Fault) : (throw e : Action σ α).Ends s Q E ↔ E e s := Iff.rfl

@[simp] theorem ends_bind (a : Action σ β) (f : β → Action σ α) :
    (a >>= f).Ends s Q E ↔ a.Ends s (fun x t => (f x).Ends t Q E) E := by
  -- the bind of an action is that of `EStateM`, behind an instance
  show (match EStateM.bind a f s with | .ok x t => Q x t | .error e t => E e t) ↔ _
  unfold Ends EStateM.bind
  cases a s <;> rfl

@[simp] theorem ends_get {Q : σ → σ → Prop} : (get : Action σ σ).Ends s Q E ↔ Q s s := Iff.rfl

@[simp] theorem ends_set {Q : PUnit → σ → Prop} (t : σ) :
    (set t : Action σ PUnit).Ends s Q E ↔ Q ⟨⟩ t := Iff.rfl

@[simp] theorem ends_focus (get : σ → τ) (put : τ → σ → σ) (a : Action τ α) :
    (focus get put a).Ends s Q E ↔
      a.Ends (get s) (fun x t => Q x (put t s)) (fun e t => E e (put t s)) := by
  unfold Ends focus
  cases a (get s) <;> rfl

@[simp] theorem ends_onFirst {a : Action σ α} {p : σ × τ} {Q : α → σ × τ → Prop}
    {E : Fault → σ × τ → Prop} :
    (onFirst a).Ends p Q E ↔
      a.Ends p.1 (fun x s => Q x (s, p.2)) (fun e s => E e (s, p.2)) := ends_focus _ _ _

@[simp] theorem ends_onSecond {a : Action τ α} {p : σ × τ} {Q : α → σ × τ → Prop}
    {E : Fault → σ × τ → Prop} :
    (onSecond a).Ends p Q E ↔
      a.Ends p.2 (fun x t => Q x (p.1, t)) (fun e t => E e (p.1, t)) := ends_focus _ _ _

@[simp] theorem ends_attempt (a : Action σ α) {Q : Except Fault α → σ → Prop} :
    (attempt a).Ends s Q E ↔ a.Ends s (fun x t => Q (.ok x) t) (fun e t => Q (.error e) t) := by
  unfold Ends attempt
  cases a s <;> rfl

@[simp] theorem ends_use (f : σ → α × σ) : (use f).Ends s Q E ↔ Q (f s).1 (f s).2 := Iff.rfl

@[simp] theorem ends_ofExcept_ok (x : α) :
    (ofExcept (.ok x) : Action σ α).Ends s Q E ↔ Q x s := Iff.rfl

@[simp] theorem ends_ite (c : Prop) [Decidable c] (a b : Action σ α) :
    (if c then a else b).Ends s Q E ↔ if c then a.Ends s Q E else b.Ends s Q E := by
  split <;> rfl

@[simp] theorem ends_map (f : β → α) (a : Action σ β) :
    (f <$> a).Ends s Q E ↔ a.Ends s (fun x t => Q (f x) t) E := by
  rw [map_eq_pure_bind, ends_bind]
  rfl

/-- An action over a list: what each item carries from one state to the next. -/
theorem ends_forM {ι : Type} {f : ι → Action σ PUnit} {I : List ι → σ → Prop}
    (step : ∀ i rest s, I (i :: rest) s → (f i).Ends s (fun _ t => I rest t) E) (items : List ι)
    (h : I items s) : (items.forM f).Ends s (fun _ t => I [] t) E := by
  induction items generalizing s with
  | nil => exact h
  | cons i rest ih =>
    show (f i >>= fun _ => rest.forM f).Ends s _ E
    rw [ends_bind]
    exact (step i rest s h).imp (fun _ t ht => ih ht) fun _ _ he => he

/-- The faults of an action over a list are those of the action on an item. -/
theorem ends_forM_faults {ι : Type} {f : ι → Action σ PUnit} {F : Fault → Prop}
    (faults : ∀ i s, (f i).Ends s (fun _ _ => True) fun e _ => F e) (items : List ι) (s : σ) :
    (items.forM f).Ends s (fun _ _ => True) fun e _ => F e :=
  ends_forM (I := fun _ _ => True) (fun i _ s _ => faults i s) items trivial

/-! ## What an action keeps -/

/-- From a state in `I` the action leads to one in `I`, whether it ends well or not. -/
def Keeps (a : Action σ α) (I : σ → Prop) : Prop :=
  ∀ s, I s → a.Ends s (fun _ t => I t) fun _ t => I t

theorem Keeps.ends {a : Action σ α} {I : σ → Prop} (h : a.Keeps I) (hs : I s)
    (hQ : ∀ x t, I t → Q x t) (hE : ∀ e t, I t → E e t) : a.Ends s Q E :=
  (h s hs).imp hQ hE

/-- `give` passes on the first of what is owned. If it fails that is gone all the same, and `F`
says of the fault and the state what is known then. -/
def Passes {ι : Type} (give : ι → Action σ Unit) (Own : List ι → σ → Prop)
    (F : Fault → σ → Prop) : Prop :=
  ∀ i rest s, Own (i :: rest) s →
    (give i).Ends s (fun _ t => Own rest t) fun e t => Own rest t ∧ F e t

/-- `give` passes on the first of what is owned. If it fails that is gone all the same, and the
state is `Bad`. -/
def GivesAway {ι : Type} (give : ι → Action σ Unit) (Own : List ι → σ → Prop) (Bad : σ → Prop) :
    Prop :=
  ∀ i rest s, Own (i :: rest) s →
    (give i).Ends s (fun _ t => Own rest t) fun _ t => Own rest t ∧ Bad t

/-! ## Where a run of an action left the state -/

/-- The state that an action leaves behind, whether it ends well or not. -/
def stateAfter (a : Action σ α) (s : σ) : σ :=
  match a s with
  | .ok _ t => t
  | .error _ t => t

theorem Ends.stateAfter {a : Action σ α} {I : σ → Prop}
    (h : a.Ends s (fun _ t => I t) (fun _ t => I t)) : I (a.stateAfter s) := by
  unfold Action.stateAfter
  unfold Ends at h
  cases ha : a s <;> rw [ha] at h <;> exact h

/-- The answer of an action, if it ends well. -/
def answer? (a : Action σ α) (s : σ) : Option α :=
  match a s with
  | .ok x _ => some x
  | .error _ _ => none

theorem answer?_eq_some_iff {a : Action σ α} {x : α} :
    a.answer? s = some x ↔ ∃ t, a s = .ok x t := by
  unfold answer?
  cases a s with
  | ok y t => simp
  | error e t => simp

theorem ends_of_answer? {a : Action σ α} {x : α} (h : a.answer? s = some x) :
    a.Ends s (fun y _ => y = x) fun _ _ => False := by
  obtain ⟨t, hok⟩ := answer?_eq_some_iff.mp h
  exact (ends_of_ok hok).mpr rfl

/-- An action ends where it leaves the state. -/
theorem ends_stateAfter (a : Action σ α) :
    a.Ends s (fun _ t => a.stateAfter s = t) fun _ t => a.stateAfter s = t := by
  unfold Ends Action.stateAfter
  split <;> rfl

end Playout.Action
