import Playout.Proofs.Decode.Misuse

/-!
# Offering returns

A return is offered to the decoder, which takes the slot back or puts it off. `Offered` says of a
list of offers that they were all that the decoder was told, in this order, and that it answered as
they say. Where the loops over returns end well, such a list accounts for everything:

    retryReturns_offers : each deferred return is offered once more, in turn
    returnOutput_offers : one more return is offered
    teardown_offers     : nothing is offered but what is deferred, before the decoder is stopped
-/

namespace Playout

/-- A return that a decoder was offered, and whether it took the slot back or put it off. -/
structure Offer where
  slot : Nat
  kind : ReturnKind
  taken : Bool
deriving DecidableEq

namespace Offer

/-- What was to be returned. -/
def entry (o : Offer) : Nat × ReturnKind := (o.slot, o.kind)

def call (o : Offer) : DecoderCall := o.kind.call o.slot

def answer (o : Offer) : Except DecoderError Unit := if o.taken then .ok () else .error .busy

end Offer

/-- The returns that were put off. -/
def putOff (offers : List Offer) : List (Nat × ReturnKind) :=
  (offers.filter fun o => !o.taken).map Offer.entry

@[simp] theorem putOff_append (offers more : List Offer) :
    putOff (offers ++ more) = putOff offers ++ putOff more := by
  simp [putOff]

variable {δ : Type}

/-- The decoder was offered these returns from `d` to `d'`, and told nothing else. -/
inductive DecoderDevice.Offered (device : DecoderDevice δ) : List Offer → δ → δ → Prop where
  | nil (d : δ) : device.Offered [] d d
  | snoc {offers : List Offer} {d d' : δ} (o : Offer) (before : device.Offered offers d d')
      (answered : (device.call o.call d').1 = o.answer) :
      device.Offered (offers ++ [o]) d (device.call o.call d').2

namespace Pipeline

open Playout.Action

variable {device : DecoderDevice δ} {p : Pipeline} {d d₀ : δ}

/-- The returns in `all` have been offered since `d₀` but for those in `rest`, and the ones that
were put off stand behind those that were deferred before. -/
def Offering (device : DecoderDevice δ) (d₀ : δ) (before all rest : List (Nat × ReturnKind))
    (t : Pipeline × δ) : Prop :=
  ∃ offers, device.Offered offers d₀ t.2 ∧ offers.map Offer.entry ++ rest = all ∧
    t.1.deferred = before ++ putOff offers

/-- Each answer adds the offer to the list, and the slot to the deferred ones if it was put off. -/
theorem takesBack_offers (device : DecoderDevice δ) (d₀ : δ)
    (before all : List (Nat × ReturnKind)) :
    TakesBack device (Offering device d₀ before all) fun _ _ => True where
  taken _ d slot kind rest hanswer _ h := by
    -- taken, so nothing is deferred
    obtain ⟨offers, hoffered, hall, hdeferred⟩ := h
    refine ⟨offers ++ [⟨slot, kind, true⟩], .snoc ⟨slot, kind, true⟩ hoffered hanswer, ?_, ?_⟩
    · rw [← hall, List.map_append, List.append_assoc]
      rfl
    · show _ = before ++ putOff (offers ++ [⟨slot, kind, true⟩])
      rw [putOff_append, hdeferred]
      exact (congrArg (before ++ ·) (List.append_nil _)).symm
  deferred _ d slot kind rest hanswer h := by
    -- put off, behind what was put off before
    obtain ⟨offers, hoffered, hall, hdeferred⟩ := h
    refine ⟨offers ++ [⟨slot, kind, false⟩], .snoc ⟨slot, kind, false⟩ hoffered hanswer, ?_, ?_⟩
    · rw [← hall, List.map_append, List.append_assoc]
      rfl
    · show _ ++ [(slot, kind)] = before ++ putOff (offers ++ [⟨slot, kind, false⟩])
      rw [putOff_append, hdeferred, List.append_assoc]
      rfl
  refused _ _ _ _ _ _ _ _ := trivial
  misused _ _ _ _ _ _ _ _ _ _ := trivial

/-- Each deferred return is offered once more, in turn. -/
theorem retryReturns_offers (kindOf : ReturnKind → ReturnKind) :
    (retryReturns device kindOf).Ends (p, d) (fun _ t => ∃ offers,
      device.Offered offers d t.2 ∧
      offers.map Offer.entry = p.deferred.map (fun entry => (entry.1, kindOf entry.2)) ∧
      t.1.deferred = putOff offers) fun _ _ => True := by
  have hstart : Offering device d [] (p.deferred.map fun entry => (entry.1, kindOf entry.2))
      (p.deferred.map fun entry => (entry.1, kindOf entry.2)) ({ p with deferred := [] }, d) :=
    ⟨[], .nil d, rfl, rfl⟩
  refine ((takesBack_offers device d [] _).retryReturns kindOf hstart).imp ?_ fun _ _ _ => trivial
  intro _ t ht
  obtain ⟨offers, hoffered, hall, hdeferred⟩ := ht
  rw [List.append_nil] at hall
  exact ⟨offers, hoffered, hall, hdeferred⟩

/-- A slot that is given back is offered. -/
theorem returnOutput_offers {before all rest : List (Nat × ReturnKind)} {slot : Nat}
    {kind : ReturnKind} {t : Pipeline × δ}
    (h : Offering device d₀ before all ((slot, kind) :: rest) t) :
    (returnOutput device slot kind).Ends t (fun _ t => Offering device d₀ before all rest t)
      fun _ _ => True := by
  obtain ⟨p, d⟩ := t
  simp only [returnOutput, ends_bind]
  apply ends_moveOutput_or
  · intro _
    exact (takesBack_offers device d₀ before all).finishReturn slot kind rest h
  · exact fun _ => trivial

/-- A pipeline of which nothing is held gives back nothing before it is torn down. -/
theorem Exact.slotsIn_nil (h : p.Exact [] []) : p.outputs.slotsIn .holdingOutput = [] := by
  apply List.eq_nil_iff_forall_not_mem.mpr
  intro slot hslot
  exact absurd (h.held_all slot (SlotTable.slotsIn_allIn _ _ slot hslot)) List.not_mem_nil

/-- A teardown of a pipeline from which nothing is held offers what is deferred once more, and then
stops and releases the decoder. -/
theorem teardown_offers (h : p.Exact [] []) :
    (teardown device).Ends (p, d) (fun _ t => ∃ offers d',
      device.Offered offers d d' ∧
      offers.map Offer.entry = p.deferred.map (fun entry => (entry.1, .release)) ∧
      (device.call .stop d').1 = .ok () ∧
      t.2 = (device.call .release (device.call .stop d').2).2 ∧
      ∀ slot, t.1.outputs.state? slot ≠ some .holdingOutput) fun _ _ => True := by
  simp only [teardown, ends_bind, ends_get, h.slotsIn_nil]
  refine ((retryReturns_offers fun _ => .release).and
    (retryReturns_careful (fun _ => .release) [] (p, d) h)).imp ?_ fun _ _ _ => trivial
  rintro _ ⟨p', d'⟩ ⟨⟨offers, hoffered, hall, -⟩, hexact⟩
  have hstarted : p.started = true := h.started
  simp only [ends_update, ends_bind, hstarted, if_true]
  refine ends_demand _ (fun hstop => ?_) fun _ _ => trivial
  refine ⟨offers, d', hoffered, hall, hstop, rfl, fun slot hslot => ?_⟩
  exact absurd (hexact.held_all slot hslot) List.not_mem_nil

end Pipeline

end Playout
