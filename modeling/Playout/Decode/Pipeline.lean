import Playout.Decode.Device
import Playout.Decode.Slots

/-!
# Feeding a decoder

A `Pipeline` stands between a track and its decoder. Access units wait until the decoder has
a free input slot and go in in the order in which they came. Output slots are handed out by
the decoder, held for a renderer, and given back exactly once, either to be presented or
not. What the decoder is too busy for is kept and tried again: an input stays in the queue,
a returned output is deferred with its kind of return.

Every operation is an action on the pipeline and the decoder's state. An action that fails
leaves both as they were when it failed.
-/

namespace Playout

/-- How an output slot goes back to the decoder. -/
inductive ReturnKind where
  | release
  | render
deriving DecidableEq, Inhabited, Repr

namespace ReturnKind

def call : ReturnKind → Nat → DecoderCall
  | release, slot => .releaseOutput slot
  | render, slot => .renderOutput slot

end ReturnKind

/-- Waiting media and the slots of one decoder. -/
structure Pipeline where
  track : Nat
  inputs : SlotTable := .new track 0
  outputs : SlotTable := .new track 0
  /-- Free input slots, in the order in which the decoder gave them -/
  freeInputs : List Nat := []
  /-- Units that no input slot has taken yet -/
  pendingUnits : List AccessUnit := []
  /-- Returns that the decoder was too busy for -/
  deferred : List (Nat × ReturnKind) := []
  /-- The decoder was busy since this was last asked -/
  retryNeeded : Bool := false
  started : Bool := false
deriving DecidableEq, Inhabited, Repr

namespace Pipeline

variable {δ : Type}

def label (p : Pipeline) : String :=
  let slots := ", ".intercalate (p.freeInputs.map toString)
  s!"DecodePipeline \x7b track: {p.track}, pending_units: {p.pendingUnits.length}, "
    ++ s!"free_inputs: [{slots}], started: {p.started} \x7d"

/-- An action of a pipeline with a decoder of state `δ`. -/
abbrev Step (δ : Type) := Action (Pipeline × δ)

/-! ### Parts of operations -/

def update (f : Pipeline → Pipeline) : Step δ Unit := fun (p, d) => .ok () (f p, d)

def tell (device : DecoderDevice δ) (c : DecoderCall) : Step δ (Except DecoderError Unit) :=
  .onSecond (.use (device.call c))

/-- Tell the decoder something that it must do. -/
def demand (device : DecoderDevice δ) (c : DecoderCall) : Step δ Unit := do
  let (p, _) ← get
  match ← tell device c with
  | .ok () => return
  | .error e => throw (.decoder p.track e)

def moveInput (slot : Nat) (source target : SlotState) (reason : String) : Step δ Unit := do
  let (p, _) ← get
  let table ← Action.ofExcept (p.inputs.move slot source target reason)
  update ({ · with inputs := table })

def moveOutput (slot : Nat) (source target : SlotState) (reason : String) : Step δ Unit := do
  let (p, _) ← get
  let table ← Action.ofExcept (p.outputs.move slot source target reason)
  update ({ · with outputs := table })

/-- Feed at most `n` units, while slots and units last and the decoder is not busy. -/
def feed (device : DecoderDevice δ) : Nat → Step δ Unit
  | 0 => return
  | n + 1 => do
    let (p, _) ← get
    match p.freeInputs, p.pendingUnits with
    | slot :: _, unit :: _ =>
      match ← tell device (.queueInput slot unit) with
      -- slot and unit keep their places in front and are tried again
      | .error .busy => update ({ · with retryNeeded := true })
      | .error e => throw (.decoder p.track e)
      | .ok () =>
        moveInput slot .free .pending "input slot not free"
        update fun p =>
          { p with freeInputs := p.freeInputs.tail, pendingUnits := p.pendingUnits.tail }
        feed device n
    | _, _ => return

/-- Feed the decoder as far as slots and units allow. -/
def fillInputs (device : DecoderDevice δ) : Step δ Unit := do
  let (p, _) ← get
  feed device p.pendingUnits.length

/-- Offer a slot that is being returned to the decoder; it stays ours until it is accepted. -/
def finishReturn (device : DecoderDevice δ) (slot : Nat) (kind : ReturnKind) : Step δ Unit := do
  let (p, _) ← get
  match ← tell device (kind.call slot) with
  | .ok () => moveOutput slot .returning .pending "output slot is not being returned"
  | .error .busy => -- the slot stays `returning`, and the kind of its return is kept with it
    update fun p => { p with deferred := p.deferred ++ [(slot, kind)], retryNeeded := true }
  | .error e => throw (.decoder p.track e)

/-- Take the deferred returns out and offer each again. -/
def retryReturns (device : DecoderDevice δ) (kindOf : ReturnKind → ReturnKind) : Step δ Unit := do
  let (p, _) ← get
  -- taken out first, since what is declined again is deferred anew
  update ({ · with deferred := [] })
  p.deferred.forM fun (slot, kind) => finishReturn device slot (kindOf kind)

/-! ### Operations -/

/-- Configure and start the decoder, and ask for its slots. -/
def configure (device : DecoderDevice δ) (format : MediaFormat) (onSurface : Bool) :
    Step δ Unit := do
  demand device (.configure format onSurface)
  demand device .start
  -- only a decoder that runs says how many slots it has
  let (_, d) ← get
  update fun p => { p with
    inputs := .new p.track (device.inputSlots d)
    outputs := .new p.track (device.outputSlots d)
    started := true }

def submit (device : DecoderDevice δ) (unit : AccessUnit) : Step δ Unit := do
  update fun p => { p with pendingUnits := p.pendingUnits ++ [unit] }
  fillInputs device

/-- The decoder has given input slots. -/
def inputsAvailable (device : DecoderDevice δ) (slots : List Nat) : Step δ Unit := do
  -- a slot that is free already ends the row; those in front of it stay free
  slots.forM fun slot => do
    moveInput slot .pending .free "input slot is already free"
    update fun p => { p with freeInputs := p.freeInputs ++ [slot] }
  fillInputs device

/-- The decoder has filled an output slot; from now on it is held for a renderer. -/
def outputReady (slot : Nat) (pts : Int) (payload : List UInt8) : Step δ DecodedOutput := do
  moveOutput slot .pending .holdingOutput "output slot is already held"
  return ⟨slot, pts, payload⟩

def returnOutput (device : DecoderDevice δ) (slot : Nat) (kind : ReturnKind) : Step δ Unit := do
  moveOutput slot .holdingOutput .returning "output slot is not held"
  finishReturn device slot kind

/-- Offer deferred returns again, each with its kind, and feed the decoder. -/
def retry (device : DecoderDevice δ) : Step δ Unit := do
  retryReturns device id
  fillInputs device

/-- Whether the decoder was busy since the last call. -/
def takeRetry : Step δ Bool := do
  let (p, _) ← get
  update ({ · with retryNeeded := false })
  return p.retryNeeded

/-- Drop the units that wait, and answer how many there were. -/
def flush : Step δ Nat := do
  let (p, _) ← get
  update ({ · with pendingUnits := [] })
  return p.pendingUnits.length

/-- Return what is held, offer deferred returns once more, stop and release the decoder. What
it still defers, it takes back by stopping. -/
def teardown (device : DecoderDevice δ) : Step δ Unit := do
  let (p, _) ← get
  (p.outputs.slotsIn .holdingOutput).forM fun slot => returnOutput device slot .release
  -- nothing is presented any more, whatever kind of return was asked for
  retryReturns device fun _ => .release
  update ({ · with deferred := [], retryNeeded := false, pendingUnits := [], freeInputs := [] })
  if p.started then
    update ({ · with started := false })
    demand device .stop
  -- a release has no answer
  let _ ← tell device .release

end Pipeline

end Playout
