import Playout.Proofs.Decode.Offers
import Playout.Proofs.Decode.Upkeep

/-!
# Output slots are lent and returned in turns

What a decoder hands out it gets back once, whatever it answers to whatever operations. `Lent` is
the invariant that carries this through a run: a slot that is out, by the trace, is held or on its
way back, by the table. Before a teardown a slot whose return was put off is offered again with the
same kind of return (`Steadfast`), and while nothing fails, the deferred returns are all that are on
their way back.
-/

namespace Playout

/-- A return of the slot that is offered, with the answer. -/
def Occurrence.offer? (slot : Nat) : Occurrence → Option (ReturnKind × Except DecoderError Unit)
  | .called c answer =>
    c.return?.bind fun entry => if entry.1 = slot then some (entry.2, answer) else none
  | _ => none

namespace Trace

/-- The return of the slot that was offered last, with the answer. -/
def lastOffer? (trace : Trace) (slot : Nat) : Option (ReturnKind × Except DecoderError Unit) :=
  trace.findSome? (·.offer? slot)

/-- A return that the decoder put off is offered next with the same kind. -/
def Steadfast (trace : Trace) : Prop :=
  ∀ newer older slot kind answer kind', trace = newer ++ .called (kind.call slot) answer :: older →
    lastOffer? older slot = some (kind', .error .busy) → kind = kind'

/-- One more occurrence, if it offers no slot with another kind than it was put off with. -/
theorem Steadfast.cons {o : Occurrence} {trace : Trace} (h : trace.Steadfast)
    (ho : ∀ slot kind answer kind', o = .called (ReturnKind.call kind slot) answer →
      trace.lastOffer? slot = some (kind', .error .busy) → kind = kind') :
    Steadfast (o :: trace) := by
  intro newer older slot kind answer kind' htrace hlast
  cases newer with
  | nil =>
    cases htrace
    exact ho slot kind answer kind' rfl hlast
  | cons o' newer =>
    cases htrace
    exact h newer older slot kind answer kind' rfl hlast

end Trace

/-- The decoder has handed the slot out, and has not got it back. -/
def SlotTable.Out (t : SlotTable) (slot : Nat) : Prop :=
  t.state? slot = some .holdingOutput ∨ t.state? slot = some .returning

namespace SlotTable

variable {t : SlotTable} {slot : Nat} {s : SlotState}

theorem out_put_self (h : t.state? slot = some s) (s' : SlotState) :
    (t.put slot s').Out slot ↔ s' = .holdingOutput ∨ s' = .returning := by
  simp [Out, state?_put_self h]

theorem out_put_of_ne {i : Nat} (h : i ≠ slot) (t : SlotTable) (s : SlotState) :
    (t.put slot s).Out i ↔ t.Out i := by
  simp [Out, state?_put_of_ne h]

end SlotTable

namespace Pipeline

open Playout.Action

variable {δ : Type}

/-- The table of a pipeline agrees with what has happened to the output slots. If `same`, every
return is offered with the kind that it was put off with; if `whole`, the returns in `offered` and
the deferred ones are all that are on their way back. -/
structure Lent (same whole : Prop) (offered : List (Nat × ReturnKind)) (p : Pipeline)
    (trace : Trace) : Prop where
  turns : Alternate trace.outputMoves p.outputs.Out
  asked : ∀ slot kind, trace.lastOffer? slot = some (kind, .error .busy) →
    p.outputs.state? slot = some .returning
  steadfast : same → trace.Steadfast
  kinds : same → ∀ entry ∈ offered ++ p.deferred, ∀ kind,
    trace.lastOffer? entry.1 = some (kind, .error .busy) → entry.2 = kind
  all : whole → ∀ slot, p.outputs.state? slot = some .returning →
    slot ∈ (offered ++ p.deferred).map (·.1)

section Occurrences

variable {o : Occurrence} {slot : Nat} {kind : ReturnKind} {answer : Except DecoderError Unit}

theorem lastOffer?_of_none (h : o.offer? slot = none) (trace : Trace) :
    Trace.lastOffer? (o :: trace) slot = trace.lastOffer? slot := by
  simp [Trace.lastOffer?, h]

theorem lastOffer?_of_some (h : o.offer? slot = some (kind, answer)) (trace : Trace) :
    Trace.lastOffer? (o :: trace) slot = some (kind, answer) := by
  simp [Trace.lastOffer?, h]

theorem outputMove?_accepted (kind : ReturnKind) (slot i : Nat) :
    (Occurrence.called (kind.call slot) (.ok ())).outputMove? i =
      if slot = i then some .back else none := by
  simp [Occurrence.outputMove?]

theorem offer?_return (kind : ReturnKind) (slot i : Nat) (answer : Except DecoderError Unit) :
    (Occurrence.called (kind.call slot) answer).offer? i =
      if slot = i then some (kind, answer) else none := by
  simp [Occurrence.offer?]

/-- What was put off last was put off before an offer that was not. -/
theorem lastOffer?_of_answered {trace : Trace} {i : Nat} {kind' : ReturnKind}
    (hanswer : answer ≠ .error .busy)
    (hlast : Trace.lastOffer? (.called (kind.call slot) answer :: trace) i =
      some (kind', .error .busy)) :
    i ≠ slot ∧ trace.lastOffer? i = some (kind', .error .busy) := by
  by_cases hi : slot = i
  · rw [lastOffer?_of_some (by rw [offer?_return, if_pos hi])] at hlast
    cases hlast
    exact absurd rfl hanswer
  · rw [lastOffer?_of_none (by rw [offer?_return, if_neg hi])] at hlast
    exact ⟨Ne.symm hi, hlast⟩

end Occurrences

namespace Lent

variable {same whole : Prop} {offered rest : List (Nat × ReturnKind)} {p p' : Pipeline}
  {trace : Trace} {slot : Nat} {kind : ReturnKind}

/-- Only the output slots and the deferred returns matter. -/
theorem congr (h : Lent same whole offered p trace) (houtputs : p'.outputs = p.outputs)
    (hdeferred : p'.deferred = p.deferred) : Lent same whole offered p' trace where
  turns := by rw [houtputs]; exact h.turns
  asked := by rw [houtputs]; exact h.asked
  steadfast := h.steadfast
  kinds := by rw [hdeferred]; exact h.kinds
  all := by rw [houtputs, hdeferred]; exact h.all

/-- What is no move and no offer of an output slot changes nothing. -/
theorem quiet (h : Lent same whole offered p trace) {o : Occurrence}
    (hmove : ∀ slot, o.outputMove? slot = none) (hoffer : ∀ slot, o.offer? slot = none) :
    Lent same whole offered p (o :: trace) where
  turns := h.turns.congr (fun i => Trace.outputMoves_of_none (hmove i) trace) fun _ => Iff.rfl
  asked slot kind := by
    rw [lastOffer?_of_none (hoffer slot)]
    exact h.asked slot kind
  steadfast hsame := by
    apply (h.steadfast hsame).cons
    rintro slot kind answer kind' rfl
    -- an offer would be noticed
    have hsome := hoffer slot
    rw [offer?_return, if_pos rfl] at hsome
    cases hsome
  kinds hsame entry hentry kind := by
    rw [lastOffer?_of_none (hoffer entry.1)]
    exact h.kinds hsame entry hentry kind
  all := h.all

/-- A call that offers no return changes nothing. -/
theorem told (h : Lent same whole offered p trace) {c : DecoderCall} (hc : c.return? = none)
    (answer : Except DecoderError Unit) :
    Lent same whole offered p (.called c answer :: trace) := by
  apply h.quiet
  · intro slot
    cases answer <;> simp [Occurrence.outputMove?, hc]
  · intro slot
    simp [Occurrence.offer?, hc]

/-- Whatever has become of the returns, the slots move in turns. -/
theorem forget (h : Lent same whole offered p trace) (houtputs : p'.outputs = p.outputs) :
    Lent False False rest p' trace where
  turns := by rw [houtputs]; exact h.turns
  asked := by rw [houtputs]; exact h.asked
  steadfast := False.elim
  kinds := False.elim
  all := False.elim

/-- Once something has failed, some returns may be lost. -/
theorem fail (h : Lent same whole offered p trace) : Lent same False [] p trace :=
  { h with
    kinds := fun hsame entry hentry => h.kinds hsame entry (List.mem_append_right _ hentry)
    all := False.elim }

/-- The decoder hands a slot out. -/
theorem handOut (h : Lent same whole offered p trace)
    (hslot : p.outputs.state? slot = some .pending) :
    Lent same whole offered { p with outputs := p.outputs.put slot .holdingOutput }
      (.handedOut slot :: trace) := by
  have hin : ¬ p.outputs.Out slot := by simp [SlotTable.Out, hslot]
  have hself : (Occurrence.handedOut slot).outputMove? slot = some .out := if_pos rfl
  have hother (i : Nat) (hi : i ≠ slot) : (Occurrence.handedOut slot).outputMove? i = none :=
    if_neg (Ne.symm hi)
  -- a slot on its way back is not the one that is handed out
  have hreturning {i : Nat} (hi : p.outputs.state? i = some .returning) :
      (p.outputs.put slot .holdingOutput).state? i = some .returning := by
    rw [SlotTable.state?_put_of_ne _ p.outputs]
    · exact hi
    · rintro rfl
      rw [hslot] at hi
      cases hi
  refine ⟨?_, ?_, ?_, h.kinds, ?_⟩
  · exact h.turns.goOut (Trace.outputMoves_of_some hself trace)
      (fun i hi => Trace.outputMoves_of_none (hother i hi) trace) hin
      ((SlotTable.out_put_self hslot _).mpr (Or.inl rfl))
      fun i hi => SlotTable.out_put_of_ne hi p.outputs _
  · exact fun i kind hlast => hreturning (h.asked i kind hlast)
  · intro hsame
    apply (h.steadfast hsame).cons
    intro i kind answer kind' ho
    cases ho
  · intro hwhole i hi
    by_cases heq : i = slot
    · rw [heq] at hi
      simp [SlotTable.state?_put_self hslot] at hi
    · exact h.all hwhole i (by simpa [SlotTable.state?_put_of_ne heq] using hi)

/-- A held slot starts on its way back. -/
theorem giveBack (h : Lent same whole [] p trace)
    (hslot : p.outputs.state? slot = some .holdingOutput) (kind : ReturnKind) :
    Lent same whole [(slot, kind)] { p with outputs := p.outputs.put slot .returning } trace := by
  refine ⟨?_, ?_, h.steadfast, ?_, ?_⟩
  -- the slot is out as before, now on its way back
  · refine h.turns.congr (fun _ => rfl) fun i => ?_
    by_cases hi : i = slot
    · subst hi
      exact iff_of_true ((SlotTable.out_put_self hslot _).mpr (Or.inr rfl)) (Or.inl hslot)
    · exact SlotTable.out_put_of_ne hi p.outputs _
  · intro i kind' hlast
    by_cases hi : i = slot
    · subst hi
      exact SlotTable.state?_put_self hslot _
    · simpa [SlotTable.state?_put_of_ne hi] using h.asked i kind' hlast
  · intro hsame entry hentry kind' hlast
    rcases List.mem_cons.mp hentry with rfl | hentry
    · -- a slot that is held was not put off
      have hreturning := h.asked slot kind' hlast
      rw [hslot] at hreturning
      cases hreturning
    · exact h.kinds hsame entry hentry kind' hlast
  · intro hwhole i hreturning
    by_cases hi : i = slot
    · subst hi
      exact List.mem_cons_self
    · apply List.mem_cons_of_mem
      exact h.all hwhole i (by simpa [SlotTable.state?_put_of_ne hi] using hreturning)

/-- The deferred returns are taken out to be offered. -/
theorem takeOut (h : Lent same whole [] p trace) :
    Lent same whole p.deferred { p with deferred := [] } trace :=
  { h with
    kinds := by simpa using h.kinds
    all := by simpa using h.all }

/-- An offer has the kind with which it was put off before. -/
theorem offer (h : Lent same whole ((slot, kind) :: rest) p trace)
    (answer : Except DecoderError Unit) (hsame : same) :
    Trace.Steadfast (.called (kind.call slot) answer :: trace) := by
  apply (h.steadfast hsame).cons
  intro i kind₁ answer₁ kind₂ ho hlast
  -- the call is an offer of this slot alone
  have hsame_offer := offer?_return kind₁ i i answer₁
  rw [← ho, offer?_return, if_pos rfl] at hsame_offer
  split at hsame_offer
  · next heq =>
    cases hsame_offer
    rw [← heq] at hlast
    exact h.kinds hsame (slot, kind) List.mem_cons_self kind₂ hlast
  · cases hsame_offer

/-- The decoder takes a slot back. -/
theorem taken (h : Lent same whole ((slot, kind) :: rest) p trace)
    (hslot : p.outputs.state? slot = some .returning) :
    Lent same whole rest { p with outputs := p.outputs.put slot .pending }
      (.called (kind.call slot) (.ok ()) :: trace) := by
  have hself : (Occurrence.called (kind.call slot) (.ok ())).outputMove? slot = some .back := by
    rw [outputMove?_accepted, if_pos rfl]
  have hother (i : Nat) (hi : i ≠ slot) :
      (Occurrence.called (kind.call slot) (.ok ())).outputMove? i = none := by
    rw [outputMove?_accepted, if_neg (Ne.symm hi)]
  -- an accepted return is not one that was put off, so earlier answers stay the last ones
  have haccepted : (.ok () : Except DecoderError Unit) ≠ .error .busy := fun heq => by cases heq
  refine ⟨?_, ?_, h.offer (.ok ()), ?_, ?_⟩
  · refine h.turns.comeBack (Trace.outputMoves_of_some hself trace)
      (fun i hi => Trace.outputMoves_of_none (hother i hi) trace) (Or.inr hslot) ?_
      fun i hi => SlotTable.out_put_of_ne hi p.outputs _
    rw [SlotTable.out_put_self hslot]
    simp
  · intro i kind' hlast
    obtain ⟨hi, hlast⟩ := lastOffer?_of_answered haccepted hlast
    simpa [SlotTable.state?_put_of_ne hi] using h.asked i kind' hlast
  · intro hsame entry hentry kind' hlast
    obtain ⟨-, hlast⟩ := lastOffer?_of_answered haccepted hlast
    exact h.kinds hsame entry (List.mem_cons_of_mem _ hentry) kind' hlast
  · intro hwhole i hreturning
    have hi : i ≠ slot := by
      rintro rfl
      simp [SlotTable.state?_put_self hslot] at hreturning
    have hmem := h.all hwhole i (by simpa [SlotTable.state?_put_of_ne hi] using hreturning)
    exact (List.mem_cons.mp hmem).resolve_left hi

/-- An offer that is not accepted leaves the slot where it is. -/
theorem unmoved (h : Lent same whole offered p trace) (e : DecoderError) :
    Alternate (Trace.outputMoves (.called (kind.call slot) (.error e) :: trace)) p.outputs.Out :=
  h.turns.congr (fun _ => Trace.outputMoves_of_none rfl trace) fun _ => Iff.rfl

/-- The decoder is too busy for a slot. -/
theorem defer (h : Lent same whole ((slot, kind) :: rest) p trace)
    (hslots : p.Accounted (slot :: rest.map (·.1))) :
    Lent same whole rest { p with deferred := p.deferred ++ [(slot, kind)], retryNeeded := true }
      (.called (kind.call slot) (.error .busy) :: trace) := by
  have hslot : p.outputs.state? slot = some .returning :=
    hslots.returning_state slot List.mem_cons_self
  have hnodup : (slot :: (rest ++ p.deferred).map (·.1)).Nodup := by
    simpa using hslots.returning_nodup
  -- no slot is on its way back twice, so the others were offered before
  have hfresh : ∀ entry ∈ rest ++ p.deferred, entry.1 ≠ slot := by
    intro entry hentry heq
    apply (List.nodup_cons.mp hnodup).1
    rw [← heq]
    exact List.mem_map_of_mem hentry
  refine ⟨h.unmoved .busy, ?_, h.offer (.error .busy), ?_, ?_⟩
  · intro i kind' hlast
    by_cases hi : slot = i
    · exact hi ▸ hslot
    · rw [lastOffer?_of_none (by rw [offer?_return, if_neg hi])] at hlast
      exact h.asked i kind' hlast
  · intro hsame entry hentry kind' hlast
    rw [← List.append_assoc] at hentry
    rcases List.mem_append.mp hentry with hentry | hentry
    · rw [lastOffer?_of_none (by rw [offer?_return, if_neg (Ne.symm (hfresh entry hentry))])]
        at hlast
      exact h.kinds hsame entry (List.mem_cons_of_mem _ hentry) kind' hlast
    · -- the slot that is deferred now keeps the kind that it was offered with
      cases List.mem_singleton.mp hentry
      rw [lastOffer?_of_some (by rw [offer?_return, if_pos rfl])] at hlast
      cases hlast
      rfl
  · intro hwhole i hreturning
    have hmem := h.all hwhole i hreturning
    simp only [List.map_append, List.map_cons, List.map_nil, List.mem_append, List.mem_cons,
      List.not_mem_nil] at hmem ⊢
    grind

/-- The decoder refuses a slot, which is lost. -/
theorem refuse (h : Lent same whole ((slot, kind) :: rest) p trace) (reason : String) :
    Lent same False [] p (.called (kind.call slot) (.error (.failed reason)) :: trace) := by
  have hanswer : (.error (.failed reason) : Except DecoderError Unit) ≠ .error .busy :=
    fun heq => by cases heq
  refine ⟨h.unmoved _, ?_, h.offer _, ?_, False.elim⟩
  · intro i kind' hlast
    exact h.asked i kind' (lastOffer?_of_answered hanswer hlast).2
  · intro hsame entry hentry kind' hlast
    exact h.kinds hsame entry (List.mem_append_right _ hentry) kind'
      (lastOffer?_of_answered hanswer hlast).2

/-- Nothing has been lent by a decoder that was only configured and started. -/
theorem fresh (hp : p.Fresh)
    (htrace : ∀ o ∈ trace, ∃ c answer, o = .called c answer ∧ ¬ c.Quiet) :
    Lent same whole [] p trace := by
  induction trace with
  | nil =>
    refine ⟨?_, ?_, ?_, ?_, ?_⟩
    · intro slot
      refine ⟨trivial, iff_of_false (fun hhead => by cases hhead) ?_⟩
      rintro (hstate | hstate) <;> cases hp.outputs slot _ hstate
    · intro slot kind hlast
      cases hlast
    · intro _ newer older slot kind answer kind' htrace
      simp at htrace
    · simp [hp.deferred]
    · intro _ slot hstate
      cases hp.outputs slot _ hstate
  | cons o trace ih =>
    obtain ⟨c, answer, rfl, hc⟩ := htrace o List.mem_cons_self
    -- configuring and starting offer no return
    have hreturn : c.return? = none := by
      cases c with
      | releaseOutput slot | renderOutput slot => exact absurd trivial hc
      | _ => rfl
    exact (ih fun o ho => htrace o (List.mem_cons_of_mem _ ho)).told hreturn answer

end Lent

/-- Every part of a run keeps slots and trace in agreement; where an operation fails, some returns
may have been forgotten, so `whole` is given up. -/
theorem upholds_lent (same whole : Prop) :
    Upholds (fun _ => Lent same whole) (Lent same False []) where
  fresh _ _ hp htrace := .fresh hp htrace
  submitted _ _ _ h := (h.quiet (fun _ => rfl) fun _ => rfl).congr rfl rfl
  dropped _ _ h := (h.quiet (fun _ => rfl) fun _ => rfl).congr rfl rfl
  gave _ _ _ _ _ _ h := h.quiet (fun _ => rfl) fun _ => rfl
  entered _ _ _ _ _ h := h.congr rfl rfl
  filled _ _ _ _ _ _ _ _ h := (h.quiet (fun _ => rfl) fun _ => rfl).congr rfl rfl
  unfilled _ _ _ _ h := (h.quiet (fun _ => rfl) fun _ => rfl).congr rfl rfl
  unfed _ _ _ _ _ h := (h.quiet (fun _ => rfl) fun _ => rfl).fail
  handedOut _ _ _ hslot h := h.handOut hslot
  givenBack _ _ _ kind hslot h := h.giveBack hslot kind
  takenOut _ _ h := h.takeOut
  taken _ _ slot _ _ hslots h := h.taken (hslots.returning_state slot List.mem_cons_self)
  deferred _ _ _ _ _ hslots h := h.defer hslots
  refused _ _ _ _ _ reason _ h := h.refuse reason
  noticed _ _ h := h.congr rfl rfl
  misused _ _ h := h.fail

/-- Whatever a teardown does to the queues, the slots move in turns. -/
theorem endures_lent : Endures fun _ => Lent False False where
  toUpholds := upholds_lent False False
  released _ _ _ h := h.forget rfl
  emptied p p' trace c answer hc h hempty := by
    apply (h.told _ answer).forget hempty.outputs
    rcases hc with rfl | rfl <;> rfl

/-- What a run with teardowns keeps. -/
abbrev Returned : Pipeline × Traced δ → Prop :=
  Kept (fun _ => Lent False False) [] []

/-! ## Retries -/

/-- A retry: a call for each of the offers in turn, and then only units that are fed. -/
def Retried (offers : List Offer) (before after : Trace) : Prop :=
  ∃ fed, after = fed ++ (offers.map fun o => Occurrence.called o.call o.answer).reverse ++ before ∧
    ∀ o ∈ fed, ∃ slot unit answer, o = .called (.queueInput slot unit) answer

/-- The trace shows the offers, the newest first. -/
theorem offered_trace {device : DecoderDevice δ} {offers : List Offer} {t t' : Traced δ}
    (h : device.traced.Offered offers t t') :
    t'.trace = (offers.map fun o => Occurrence.called o.call o.answer).reverse ++ t.trace := by
  induction h with
  | nil t => rfl
  | snoc o before answered ih =>
    rw [traced_trace answered, ih]
    simp

/-- Feeding adds to the trace nothing but units. -/
theorem feeds_retried (device : DecoderDevice δ) (offers : List Offer) (trace : Trace)
    (deferred : List (Nat × ReturnKind)) :
    Feeds device.traced (fun t => t.1.deferred = deferred ∧ Retried offers trace t.2.trace)
      fun _ _ => True := by
  -- one more unit in front of those that were fed
  have hcall {slot : Nat} {unit : AccessUnit} {t : Traced δ}
      (ht : Retried offers trace t.trace) :
      Retried offers trace (device.traced.call (.queueInput slot unit) t).2.trace := by
    obtain ⟨fed, htrace, hfed⟩ := ht
    refine ⟨_ :: fed, congrArg (List.cons _) htrace, ?_⟩
    intro o ho
    rcases List.mem_cons.mp ho with rfl | ho
    · exact ⟨slot, unit, _, rfl⟩
    · exact hfed o ho
  constructor
  · exact fun _ _ _ _ _ _ _ _ _ h => ⟨h.1, hcall h.2⟩
  · exact fun _ _ _ _ _ _ _ _ h => ⟨h.1, hcall h.2⟩
  · exact fun _ _ _ _ _ _ _ _ _ _ => trivial
  · exact fun _ _ _ _ _ _ _ _ _ _ _ _ => trivial

/-- A retry that ends well offers each deferred return once more, with its kind. -/
theorem retry_offers (device : DecoderDevice δ) (t : Pipeline × Traced δ) :
    (Pipeline.retry device.traced).Ends t (fun _ t' => ∃ offers,
      offers.map Offer.entry = t.1.deferred ∧ t'.1.deferred = putOff offers ∧
      Retried offers t.2.trace t'.2.trace) fun _ _ => True := by
  obtain ⟨p, t⟩ := t
  simp only [retry, ends_bind]
  refine (retryReturns_offers id).imp ?_ fun _ _ _ => trivial
  rintro _ ⟨p', t'⟩ ⟨offers, hoffered, hall, hdeferred⟩
  have hretried : Retried offers t.trace t'.trace :=
    ⟨[], offered_trace hoffered, fun _ ho => absurd ho List.not_mem_nil⟩
  -- then the decoder is fed, which offers nothing
  refine ((feeds_retried device offers t.trace (putOff offers)).fillInputs
    ⟨hdeferred, hretried⟩).imp ?_ fun _ _ _ => trivial
  intro _ t'' ht''
  exact ⟨offers, by simpa using hall, ht''.1.1, ht''.1.2⟩

/-! ## Runs -/

section Runs

variable {device : DecoderDevice δ} {t : Pipeline × Traced δ}

/-- Every operation keeps slots and trace in agreement, and misuses no slot but one that it
names. -/
theorem perform_returned (op : Operation) (h : Returned t) :
    (op.perform device).Ends t (fun _ t => Returned t)
      fun e t' => Returned t' ∧ (e.IsMisuse → op.Misuses t.1 e) :=
  endures_lent.perform device op h

/-- Whatever a decoder answers in a run, it hands out every output slot and gets it back in turns.
Before a teardown a return that it put off is offered again with its kind: a retry offers each of
them once. A slot whose return the decoder accepted is never misused, only one that an operation
names while it is somewhere else. And as long as nothing fails, the deferred returns are, each of
them once, the slots on their way back. -/
theorem outputs_returned_in_turns (device : DecoderDevice δ) (format : MediaFormat)
    (onSurface : Bool) (track : Nat) (d : δ) (ops : List Operation) :
    let start := configured device format onSurface track d
    let t := performAll device ops start
    (∀ slot, InTurns (t.2.trace.outputMoves slot)) ∧
    (.teardown ∉ ops → t.2.trace.Steadfast) ∧
    (Pipeline.retry device.traced).Ends t (fun _ t' => ∃ offers,
      offers.map Offer.entry = t.1.deferred ∧ t'.1.deferred = putOff offers ∧
      Retried offers t.2.trace t'.2.trace) (fun _ _ => True) ∧
    (∀ op : Operation, (op.perform device).Ends t (fun _ _ => True) fun e _ =>
      (e.IsMisuse → op.Misuses t.1 e) ∧
      ∀ track slot, e ≠ .slotMisuse track slot "output slot is not being returned") ∧
    (.teardown ∉ ops → (ops.forM (Operation.perform device)).Ends start
      (fun _ t => (t.1.deferred.map (·.1)).Nodup ∧ ∀ slot,
        slot ∈ t.1.deferred.map (·.1) ↔ t.1.outputs.state? slot = some .returning)
      fun _ _ => True) := by
  intro start t
  have hreturned : Returned t := by
    -- slots move in turns also after a teardown, which changes the kinds of returns
    apply performAll_induction
    · intro op _ t ht
      exact (perform_returned op ht).imp (fun _ _ ht => ht) fun _ _ he => he.1
    · exact (upholds_lent False False).configured
  refine ⟨fun slot => (hreturned.2.turns slot).1, ?_, retry_offers device t, ?_, ?_⟩
  -- without a teardown every return keeps its kind
  · intro hops
    exact ((upholds_lent True False).performAll hops).2.steadfast trivial
  · intro op
    refine (perform_returned op hreturned).imp (fun _ _ _ => trivial) fun e _ he => ⟨he.2, ?_⟩
    rintro track slot rfl
    exact (he.2 trivial).named.1 rfl
  -- and while nothing fails, no return is forgotten
  · intro hops
    refine ((upholds_lent True True).performAll_ok hops).imp ?_ fun _ _ _ => trivial
    intro _ t ht
    refine ⟨ht.1.returning_nodup, fun slot => ⟨ht.1.returning_state slot, ht.2.all trivial slot⟩⟩

/-- A picture is to be presented, which the decoder puts off twice; the other slot is handed out and
returned meanwhile. -/
def lateRender : List Operation :=
  [.outputReady 0 0 [], .returnOutput 0 .render, .outputReady 1 40 [], .retry,
    .returnOutput 1 .release, .retry, .outputReady 0 80 []]

/-- The decoder after `lateRender`. -/
def lateRendered : Pipeline × Traced (List (Except DecoderError Unit)) :=
  performAll .answering lateRender (configured .answering (.video "video/avc" 64 48) true 0
    [.ok (), .ok (), .error .busy, .error .busy])

/-- The picture that was put off twice comes back once, before its slot goes out again. -/
theorem lateRender_in_turns :
    lateRendered.2.trace.outputMoves 0 = [.out, .back, .out] ∧
    lateRendered.2.trace.outputMoves 1 = [.back, .out] ∧
    .teardown ∉ lateRender ∧ lateRendered.2.trace.Steadfast := by
  obtain ⟨-, hsteadfast, -⟩ := outputs_returned_in_turns .answering
    (.video "video/avc" 64 48) true 0 [.ok (), .ok (), .error .busy, .error .busy] lateRender
  have hops : .teardown ∉ lateRender := by decide
  refine ⟨by decide +kernel, by decide +kernel, hops, ?_⟩
  rw [lateRendered]
  exact hsteadfast hops

end Runs

end Pipeline

end Playout
