import Playout.Decode.Device
import Playout.Time.Checked

/-!
# Presenting video in time

A `Scheduler` holds decoded frames in the order of their presentation times and presents each
when its time has come. It keeps one wake-up armed, for the frame in front; a frame that comes
in front of it moves the wake-up forward. `enqueueChecked` and `renderDueChecked` do the same with
every time in a 64-bit word.
-/

namespace Playout

/-- Frames waiting for their presentation times. -/
structure Scheduler where
  /-- Microseconds after its time at which a frame counts as late -/
  tolerance : Int
  /-- Waiting frames, the earliest first -/
  queue : List DecodedOutput := []
  /-- The time that the wake-up is armed for -/
  armedFor : Option Int := none
  frames : Nat := 0
  framesLate : Nat := 0
deriving DecidableEq, Inhabited, Repr

namespace Scheduler

variable {α : Type}

/-- An action of a scheduler whose frames go back into the state `α`. -/
abbrev Step (α : Type) := Action (Scheduler × α)

def update (f : Scheduler → Scheduler) : Step α Unit := fun (s, a) => .ok () (f s, a)

/-- `frames` with `o` behind all that are due no later. -/
def place (o : DecodedOutput) : List DecodedOutput → List DecodedOutput
  | [] => [o]
  -- frames with one time keep the order in which they came
  | f :: rest => if f.pts ≤ o.pts then f :: place o rest else o :: f :: rest

/-- Arm the wake-up for the front frame unless it is armed; the answer is the wait until then. -/
def schedule (now : Int) (s : Scheduler) : Option Nat × Scheduler :=
  match s.armedFor, s.queue with
  | none, front :: _ => (some (front.pts - now).toNat, { s with armedFor := some front.pts })
  | _, _ => (none, s)

/-- Whether the wake-up is armed for a time that the front frame does not precede. -/
def wakesInTime (s : Scheduler) : Bool :=
  match s.armedFor, s.queue with
  | some deadline, front :: _ => deadline ≤ front.pts
  | some _, [] => true
  | none, _ => false

/-- Hold a frame. The answer is the wait until a new wake-up, which replaces the one before. -/
def enqueue (s : Scheduler) (o : DecodedOutput) (now : Int) : Option Nat × Scheduler :=
  let s := { s with queue := place o s.queue }
  -- a wake-up that is early enough stays; one that comes too late is armed anew
  if s.wakesInTime then (none, s) else schedule now { s with armedFor := none }

/-- Count a frame that is presented at `now`. -/
def count (s : Scheduler) (o : DecodedOutput) (now : Int) : Scheduler :=
  { s with
    frames := s.frames + 1
    framesLate := s.framesLate + if o.pts + s.tolerance < now then 1 else 0 }

/-- Present at most `n` frames whose times have come. -/
def present (render : Nat → Action α Unit) (now : Int) : Nat → Step α Unit
  | 0 => return
  | n + 1 => do
    let (s, _) ← get
    match s.queue with
    | [] => return
    | front :: others =>
      if now < front.pts then return
      update fun s => { s.count front now with queue := others }
      .onSecond (render front.slot)
      present render now n

/-- Present every frame whose time has come. The answer is the wait until the next wake-up. -/
def renderDue (render : Nat → Action α Unit) (now : Int) : Step α (Option Nat) := do
  -- this is the wake-up, so none is armed until the end
  update ({ · with armedFor := none })
  let (s, _) ← get
  present render now s.queue.length
  .onFirst (.use (schedule now))

/-- Return at most `n` frames unpresented. -/
def releaseQueue (release : Nat → Action α Unit) : Nat → Step α Unit
  | 0 => return
  | n + 1 => do
    let (s, _) ← get
    match s.queue with
    | [] => return
    | front :: others =>
      update ({ · with queue := others })
      .onSecond (release front.slot)
      releaseQueue release n

/-- Disarm the wake-up and return every frame unpresented. -/
def releaseAll (release : Nat → Action α Unit) : Step α Unit := do
  update ({ · with armedFor := none })
  let (s, _) ← get
  releaseQueue release s.queue.length

/-! ### Presenting by the clock

The operations that count with clock readings, in words: the wait until the next wake-up, and the
time at which a frame becomes late. A step on frames that overflows has no end; one that does not
ends well or in a fault. -/

/-- How a step of a scheduler whose frames go back into the state `α` ends, if it does. -/
abbrev CheckedStep (α β : Type) :=
  Scheduler × α → Checked (EStateM.Result Fault (Scheduler × α) β)

/-- `schedule`, with the wait in a word. -/
def scheduleChecked (now : Int) (s : Scheduler) : Checked (Option Nat × Scheduler) :=
  match s.armedFor, s.queue with
  | none, front :: _ => do
    let wait ← Checked.difference front.pts now
    return (some wait.toNat, { s with armedFor := some front.pts })
  | _, _ => return (none, s)

/-- `enqueue`, with the wait in a word. -/
def enqueueChecked (s : Scheduler) (o : DecodedOutput) (now : Int) :
    Checked (Option Nat × Scheduler) :=
  let s := { s with queue := place o s.queue }
  if s.wakesInTime then return (none, s) else scheduleChecked now { s with armedFor := none }

/-- `count`, with the time at which the frame becomes late in a word. -/
def countChecked (s : Scheduler) (o : DecodedOutput) (now : Int) : Checked Scheduler := do
  let limit ← Checked.sum o.pts s.tolerance
  return { s with
    frames := s.frames + 1
    framesLate := s.framesLate + if limit < now then 1 else 0 }

/-- `present`, with every frame counted in words. -/
def presentChecked (render : Nat → Action α Unit) (now : Int) : Nat → CheckedStep α Unit
  | 0, t => return .ok () t
  | n + 1, (s, a) =>
    match s.queue with
    | [] => return .ok () (s, a)
    | front :: others =>
      if now < front.pts then return .ok () (s, a)
      else do
        -- an overflow comes before the slot is given back
        let counted ← s.countChecked front now
        match render front.slot a with
        | .ok _ a => presentChecked render now n ({ counted with queue := others }, a)
        | .error e a => return .error e ({ counted with queue := others }, a)

/-- `renderDue`, with every frame counted in words. -/
def renderDueChecked (render : Nat → Action α Unit) (now : Int) : CheckedStep α (Option Nat) :=
  fun (s, a) => do
    match ← presentChecked render now s.queue.length ({ s with armedFor := none }, a) with
    | .ok _ (s, a) =>
      let (wait, s) ← scheduleChecked now s
      return .ok wait (s, a)
    | .error e t => return .error e t

end Scheduler

end Playout
