import Playout.Decode.Device

/-!
# Pacing audio

The audio device has a ring of a fixed number of frames and plays it at its own speed. A
`Pacer` writes no more than the ring has room for, keeps what the device left of a buffer,
and asks to be called again when about half of the frames in the ring will have been played.
A buffer goes back to its decoder when the device has taken all of it.

Positions count frames and wrap around at 32 bits, on both sides.
-/

namespace Playout

/-- An audio output with state `α`. -/
structure AudioDevice (α : Type) where
  /-- Size of the ring, in frames -/
  frameCount : α → Nat
  frameSize : α → Nat
  sampleRate : α → Nat
  /-- Frames played since the start -/
  position : α → UInt32
  /-- Offer bytes; the device takes a first part of them and says how long it is. -/
  write : List UInt8 → α → Except String Nat × α
  stop : α → α

namespace AudioDevice

/-- The same output in a larger state. -/
def onSecond {α τ : Type} (p : AudioDevice α) : AudioDevice (τ × α) where
  frameCount s := p.frameCount s.2
  frameSize s := p.frameSize s.2
  sampleRate s := p.sampleRate s.2
  position s := p.position s.2
  write bytes s := let (r, a) := p.write bytes s.2; (r, (s.1, a))
  stop s := (s.1, p.stop s.2)

end AudioDevice

/-- A buffer of which a last part is still to be written. -/
structure QueuedAudio where
  slot : Nat
  rest : List UInt8
deriving DecidableEq, Inhabited, Repr

/-- Buffers on their way to the audio output. -/
structure Pacer where
  queue : List QueuedAudio := []
  /-- Whole frames written since the start -/
  framesWritten : UInt32 := 0
  /-- Bytes written of a frame that is not whole yet -/
  partialBytes : Nat := 0
  bytesWritten : Nat := 0
  /-- A call of `push` has been asked for -/
  pushPending : Bool := false
deriving DecidableEq, Inhabited, Repr

namespace Pacer

variable {α : Type}

/-- An action of a pacer with an audio output of state `α`. -/
abbrev Step (α : Type) := Action (Pacer × α)

def update (f : Pacer → Pacer) : Step α Unit := fun (p, a) => .ok () (f p, a)

/-- Frames in the ring that have not been played. -/
def inFlight (p : Pacer) (device : AudioDevice α) (a : α) : Nat :=
  -- both counts wrap around at 32 bits, and so does their difference
  (p.framesWritten - device.position a).toNat

/-- Bytes that the ring has room for. -/
def headroom (p : Pacer) (device : AudioDevice α) (a : α) : Nat :=
  (device.frameCount a - p.inFlight device a) * device.frameSize a

/-- The wait in microseconds until half of the frames in the ring have been played. -/
def delay (p : Pacer) (device : AudioDevice α) (a : α) : Nat :=
  p.inFlight device a * 1000000 / max (device.sampleRate a) 1 / 2

/-- Ask for a push, if there is something to push and none has been asked for. -/
def schedule (device : AudioDevice α) : Step α (Option Nat) := do
  let (p, a) ← get
  if p.pushPending || p.queue.isEmpty then return none
  update ({ · with pushPending := true })
  return some (p.delay device a)

/-- Queue a decoded buffer. The answer is the wait until the next push, if one is asked for. -/
def enqueue (device : AudioDevice α) (o : DecodedOutput) : Step α (Option Nat) := do
  update fun p => { p with queue := p.queue ++ [⟨o.slot, o.payload⟩] }
  schedule device

/-- Count `n` bytes that the device has taken, in frames of `frameSize` bytes. -/
def account (p : Pacer) (n frameSize : Nat) : Pacer :=
  let bytes := p.partialBytes + n
  { p with
    framesWritten := p.framesWritten + UInt32.ofNat (bytes / max frameSize 1)
    partialBytes := bytes % max frameSize 1
    bytesWritten := p.bytesWritten + n }

/-- Offer as much of `bytes` as the ring has room for, and answer how much was taken. -/
def offer (device : AudioDevice α) (bytes : List UInt8) : Step α Nat := do
  let (p, a) ← get
  let room := p.headroom device a
  -- the device is not called in vain
  if room = 0 ∨ bytes = [] then return 0
  match ← Action.onSecond (.use (device.write (bytes.take room))) with
  | .ok n => return n
  | .error reason => throw (.audioSink reason)

/-- Write at most `n` buffers, until one is left over in part. -/
def write (device : AudioDevice α) (release : Nat → Action α Unit) : Nat → Step α Unit
  | 0 => return
  | n + 1 => do
    let (p, _) ← get
    match p.queue with
    | [] => return
    | front :: others =>
      let taken ← offer device front.rest
      let (_, a) ← get
      update (·.account taken (device.frameSize a))
      -- what is left of the buffer goes first at the next push
      if taken < front.rest.length then
        update ({ · with queue := { front with rest := front.rest.drop taken } :: others })
      else
        update ({ · with queue := others })
        .onSecond (release front.slot)
        write device release n

/-- Write what the ring has room for, and return the buffers that are written whole. The answer
is the wait until the next push, if one is asked for. -/
def push (device : AudioDevice α) (release : Nat → Action α Unit) : Step α (Option Nat) := do
  update ({ · with pushPending := false })
  -- no more turns than there are buffers: each turn finishes one or is the last
  let (p, _) ← get
  write device release p.queue.length
  schedule device

/-- Return at most `n` buffers unwritten. -/
def releaseQueue (release : Nat → Action α Unit) : Nat → Step α Unit
  | 0 => return
  | n + 1 => do
    let (p, _) ← get
    match p.queue with
    | [] => return
    | front :: others =>
      update ({ · with queue := others })
      .onSecond (release front.slot)
      releaseQueue release n

def releaseAll (release : Nat → Action α Unit) : Step α Unit := do
  update ({ · with pushPending := false })
  let (p, _) ← get
  releaseQueue release p.queue.length

end Pacer

end Playout
