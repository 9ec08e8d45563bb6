import Playout.Fault

/-!
# Slot ownership

A `SlotTable` says for every slot of a decoder who owns it. `move` changes the owner of one
slot and refuses if the slot does not exist or is not where it should be.
-/

namespace Playout

/-- Who owns a slot. -/
inductive SlotState where
  /-- The decoder -/
  | pending
  /-- The pipeline: an input slot that waits to be filled -/
  | free
  /-- The pipeline: an output slot that its renderer has not returned -/
  | holdingOutput
  /-- Returned by its renderer, not yet taken back by the decoder -/
  | returning
deriving DecidableEq, Inhabited, Repr

namespace SlotState

def label : SlotState → String
  | pending => "Pending"
  | free => "Free"
  | holdingOutput => "HoldingOutput"
  | returning => "Returning"

end SlotState

/-- The owners of the slots of one track. -/
structure SlotTable where
  track : Nat
  states : List SlotState
deriving DecidableEq, Inhabited, Repr

namespace SlotTable

/-- A table of `count` slots, all owned by the decoder. -/
def new (track count : Nat) : SlotTable := ⟨track, List.replicate count .pending⟩

def state? (t : SlotTable) (slot : Nat) : Option SlotState := t.states[slot]?

/-- The slots with a given owner, in increasing order. -/
def slotsIn (t : SlotTable) (s : SlotState) : List Nat :=
  (List.range t.states.length).filter fun i => t.states[i]? == some s

def move (t : SlotTable) (slot : Nat) (source target : SlotState) (reason : String) :
    Except Fault SlotTable :=
  match t.states[slot]? with
  | none => throw (.slotMisuse t.track slot "slot index out of range")
  | some s =>
    if s = source then return { t with states := t.states.set slot target }
    else throw (.slotMisuse t.track slot reason)

def label (t : SlotTable) : String :=
  let states := ", ".intercalate (t.states.map SlotState.label)
  s!"SlotTable \x7b track: {t.track}, states: [{states}] \x7d"

end SlotTable

end Playout
