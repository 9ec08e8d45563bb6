import Playout.Proofs.Decode.Misuse

/-!
# Runs of a pipeline

A pipeline is configured once and then asked for one operation after the other, whether they end
well or not. `Traced δ` is the world of its decoder with a trace of what happened between the two,
the newest first: the calls of the decoder and their answers, the slots that it passed on, and the
units that came from outside or were dropped.

An output slot goes out when the decoder hands it out, and comes back when the decoder accepts its
return. An input slot goes out when the decoder gives it, and comes back when the decoder accepts a
unit in it. `InTurns` says of such moves that they alternate.
-/

namespace Playout

/-- What happens between a pipeline and its decoder. -/
inductive Occurrence where
  | called (c : DecoderCall) (answer : Except DecoderError Unit)
  /-- An input slot that the decoder gives is entered as free. -/
  | gave (slot : Nat)
  /-- An output slot that the decoder hands out is held from now on. -/
  | handedOut (slot : Nat)
  | submitted (unit : AccessUnit)
  | dropped (units : List AccessUnit)

/-- What happened, the newest first. -/
abbrev Trace := List Occurrence

/-- A slot leaves the decoder or returns to it. -/
inductive Move where
  | out
  | back
deriving DecidableEq

/-- The newest first: a slot goes out before it comes back, and comes back before it goes out
again. -/
def InTurns : List Move → Prop
  | [] => True
  | .out :: moves => moves.head? ≠ some .out ∧ InTurns moves
  | .back :: moves => moves.head? = some .out ∧ InTurns moves

/-- The return that a call offers. -/
def DecoderCall.return? : DecoderCall → Option (Nat × ReturnKind)
  | .releaseOutput slot => some (slot, .release)
  | .renderOutput slot => some (slot, .render)
  | _ => none

@[simp] theorem ReturnKind.return?_call (kind : ReturnKind) (slot : Nat) :
    (kind.call slot).return? = some (slot, kind) := by
  cases kind <;> rfl

namespace Occurrence

/-- How an output slot moves. -/
def outputMove? (slot : Nat) : Occurrence → Option Move
  | .handedOut s => if s = slot then some .out else none
  | .called c (.ok ()) => if c.return?.map (·.1) = some slot then some .back else none
  | _ => none

/-- How an input slot moves. -/
def inputMove? (slot : Nat) : Occurrence → Option Move
  | .gave s => if s = slot then some .out else none
  | .called (.queueInput s _) (.ok ()) => if s = slot then some .back else none
  | _ => none

end Occurrence

namespace Trace

/-- The moves of an output slot, the newest first. -/
def outputMoves (trace : Trace) (slot : Nat) : List Move := trace.filterMap (·.outputMove? slot)

/-- The moves of an input slot, the newest first. -/
def inputMoves (trace : Trace) (slot : Nat) : List Move := trace.filterMap (·.inputMove? slot)

end Trace

/-- The world of a decoder with a trace. -/
structure Traced (δ : Type) where
  device : δ
  trace : Trace := []

variable {δ : Type}

/-- The same world after one more occurrence. -/
def Traced.note (t : Traced δ) (o : Occurrence) : Traced δ := { t with trace := o :: t.trace }

/-- The same decoder with a trace. -/
def DecoderDevice.traced (device : DecoderDevice δ) : DecoderDevice (Traced δ) where
  call c t := ((device.call c t.device).1,
    ⟨(device.call c t.device).2, .called c (device.call c t.device).1 :: t.trace⟩)
  inputSlots t := device.inputSlots t.device
  outputSlots t := device.outputSlots t.device

/-- A decoder with two slots of each kind that gives its answers from a list, and accepts what is
beyond it. -/
def DecoderDevice.answering : DecoderDevice (List (Except DecoderError Unit)) where
  call _ answers := (answers.headD (.ok ()), answers.tail)
  inputSlots _ := 2
  outputSlots _ := 2

namespace Pipeline

/-- What a pipeline can be asked for once it is configured. -/
inductive Operation where
  | submit (unit : AccessUnit)
  | inputsAvailable (slots : List Nat)
  | outputReady (slot : Nat) (pts : Int) (payload : List UInt8)
  | returnOutput (slot : Nat) (kind : ReturnKind)
  | retry
  | takeRetry
  | flush
  | teardown
deriving DecidableEq

def note (o : Occurrence) : Step (Traced δ) Unit := fun (p, t) => .ok () (p, t.note o)

/-- Perform an operation and note what it does. -/
def Operation.perform (device : DecoderDevice δ) : Operation → Step (Traced δ) Unit
  | submit unit => do
    note (.submitted unit)
    Pipeline.submit device.traced unit
  | inputsAvailable slots => do
    let (p, _) ← get
    (p.inputs.entered slots).forM fun slot => note (.gave slot)
    Pipeline.inputsAvailable device.traced slots
  | outputReady slot pts payload => do
    let output ← Pipeline.outputReady slot pts payload
    note (.handedOut output.slot)
  | returnOutput slot kind => Pipeline.returnOutput device.traced slot kind
  | retry => Pipeline.retry device.traced
  | takeRetry => do
    let _ ← Pipeline.takeRetry
  | flush => do
    let (p, _) ← get
    note (.dropped p.pendingUnits)
    let _ ← Pipeline.flush
  | teardown => Pipeline.teardown device.traced

/-- The pipeline of a track after it was configured, whether that ended well or not. -/
def configured (device : DecoderDevice δ) (format : MediaFormat) (onSurface : Bool) (track : Nat)
    (d : δ) : Pipeline × Traced δ :=
  (configure device.traced format onSurface).stateAfter ({ track }, ⟨d, []⟩)

/-- Perform one operation after the other, whether they end well or not. -/
def performAll (device : DecoderDevice δ) (ops : List Operation) (t : Pipeline × Traced δ) :
    Pipeline × Traced δ :=
  ops.foldl (fun t op => (op.perform device).stateAfter t) t

end Pipeline

/-! ## One more occurrence -/

section Moves

variable {o : Occurrence} {slot : Nat} {move : Move}

/-- What is no move of the slot is left out. -/
theorem Trace.outputMoves_of_none (h : o.outputMove? slot = none) (trace : Trace) :
    outputMoves (o :: trace) slot = trace.outputMoves slot :=
  List.filterMap_cons_none h

/-- What is one comes first. -/
theorem Trace.outputMoves_of_some (h : o.outputMove? slot = some move) (trace : Trace) :
    outputMoves (o :: trace) slot = move :: trace.outputMoves slot :=
  List.filterMap_cons_some h

theorem Trace.inputMoves_of_none (h : o.inputMove? slot = none) (trace : Trace) :
    inputMoves (o :: trace) slot = trace.inputMoves slot :=
  List.filterMap_cons_none h

theorem Trace.inputMoves_of_some (h : o.inputMove? slot = some move) (trace : Trace) :
    inputMoves (o :: trace) slot = move :: trace.inputMoves slot :=
  List.filterMap_cons_some h

end Moves

/-- Every slot moves in turns, and those that are out now satisfy `out`. -/
def Alternate (moves : Nat → List Move) (out : Nat → Prop) : Prop :=
  ∀ slot, InTurns (moves slot) ∧ ((moves slot).head? = some .out ↔ out slot)

namespace Alternate

variable {moves moves' : Nat → List Move} {out out' : Nat → Prop} {slot : Nat}

theorem congr (h : Alternate moves out) (hmoves : ∀ i, moves' i = moves i)
    (hout : ∀ i, out' i ↔ out i) : Alternate moves' out' := by
  intro i
  rw [hmoves, hout]
  exact h i

/-- One slot goes out. -/
theorem goOut (h : Alternate moves out) (hself : moves' slot = .out :: moves slot)
    (hother : ∀ i ≠ slot, moves' i = moves i) (hbefore : ¬ out slot) (hafter : out' slot)
    (hrest : ∀ i ≠ slot, (out' i ↔ out i)) : Alternate moves' out' := by
  intro i
  by_cases hi : i = slot
  · subst hi
    rw [hself]
    exact ⟨⟨fun hhead => hbefore ((h i).2.mp hhead), (h i).1⟩, iff_of_true rfl hafter⟩
  · rw [hother i hi, hrest i hi]
    exact h i

/-- One slot comes back. -/
theorem comeBack (h : Alternate moves out) (hself : moves' slot = .back :: moves slot)
    (hother : ∀ i ≠ slot, moves' i = moves i) (hbefore : out slot) (hafter : ¬ out' slot)
    (hrest : ∀ i ≠ slot, (out' i ↔ out i)) : Alternate moves' out' := by
  intro i
  by_cases hi : i = slot
  · subst hi
    rw [hself]
    refine ⟨⟨(h i).2.mpr hbefore, (h i).1⟩, iff_of_false ?_ hafter⟩
    exact fun hhead => by cases hhead
  · rw [hother i hi, hrest i hi]
    exact h i

end Alternate

end Playout
