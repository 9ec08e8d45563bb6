import Playout.Session.Platform

/-!
# A simulated platform

Decoders that hand every input on as an output with the same payload, an audio ring that a
listener plays, and a surface that remembers what it showed. A fault plan makes decoders busy
for a number of calls, or makes one track fail.
-/

namespace Playout

/-- What is made to go wrong. -/
structure FaultPlan where
  /-- Inputs still to be answered with "busy" -/
  busyQueues : Nat := 0
  /-- Returns of outputs still to be answered with "busy" -/
  deferredReturns : Nat := 0
  /-- The track whose decoder fails at every input -/
  failingTrack : Option Nat := none
deriving DecidableEq, Inhabited, Repr

/-- A decoder that echoes. -/
structure EchoDecoder where
  /-- Presentation times of the inputs taken -/
  queued : List Int := []
  released : List Nat := []
  rendered : List Nat := []
  /-- Inputs offered, refused ones included -/
  attempts : Nat := 0
  stopped : Bool := false
  freed : Bool := false
  onSurface : Bool := false
  freeOutputs : List Nat
  /-- Units that no output slot has taken yet -/
  decoded : List AccessUnit := []
  /-- What each output slot holds while it is handed out -/
  outputs : List (Option AccessUnit)
deriving DecidableEq, Inhabited, Repr

/-- What happened at the end of a session. -/
inductive JournalEntry where
  | decoderStop (track : Nat)
  | decoderRelease (track : Nat)
  | outputRelease (track slot : Nat)
  | audioStop
  | surfaceStop
deriving DecidableEq, Inhabited, Repr

namespace JournalEntry

def text : JournalEntry → String
  | decoderStop track => s!"track{track} stop"
  | decoderRelease track => s!"track{track} release"
  | outputRelease track slot => s!"track{track} release_output {slot}"
  | audioStop => "audio stop"
  | surfaceStop => "surface stop"

end JournalEntry

structure AudioRing where
  played : UInt32 := 0
  framesWritten : UInt32 := 0
  written : List UInt8 := []
  /-- The most unplayed frames that were ever in the ring -/
  maxInFlight : UInt32 := 0
  stopped : Bool := false
deriving DecidableEq, Inhabited, Repr

namespace AudioRing

/-- Bytes in a frame: two channels of 16 bits. -/
def frameSize : Nat := 4

def sampleRate : Nat := 48000

/-- Frames written and not yet played. -/
def inFlight (r : AudioRing) : UInt32 := r.framesWritten - r.played

/-- Play up to `frames` of what is in the ring. -/
def play (r : AudioRing) (frames : UInt32) : AudioRing :=
  { r with played := r.played + min frames r.inFlight }

/-- Take as many whole frames as a ring of `size` frames has room for. -/
def write (size : Nat) (bytes : List UInt8) (r : AudioRing) : Except String Nat × AudioRing :=
  let room := (size - r.inFlight.toNat) * frameSize
  -- whole frames only, so a ring never holds a part of one
  let frames := min bytes.length room / frameSize
  let r := { r with
    written := r.written ++ bytes.take (frames * frameSize)
    framesWritten := r.framesWritten + UInt32.ofNat frames }
  (return frames * frameSize, { r with maxInFlight := max r.maxInFlight r.inFlight })

end AudioRing

structure Simulation where
  decoders : PerTrack (Option EchoDecoder) := .both none
  faults : FaultPlan := {}
  ring : AudioRing := {}
  /-- Frames that the surface showed -/
  presented : List AccessUnit := []
  journal : List JournalEntry := []
deriving DecidableEq, Inhabited, Repr

/-- The fixed properties of simulated devices. -/
structure SimulatedDevices where
  inputs : Nat := 4
  outputs : Nat := 16
  frames : Nat := 480
deriving DecidableEq, Inhabited, Repr

namespace EchoDecoder

/-- A decoder with `outputs` output slots. -/
def new (outputs : Nat) : EchoDecoder :=
  { freeOutputs := List.range outputs, outputs := List.replicate outputs none }

/-- Output slots that are handed out, in increasing order. -/
def outstanding (d : EchoDecoder) : List Nat :=
  (List.range d.outputs.length).filter fun i => (d.outputs[i]?.join).isSome

/-- Hand decoded units out while slots are free, and post them. -/
def emit (track : Nat) : List AccessUnit → EchoDecoder → List Message × EchoDecoder
  | [], d => ([], { d with decoded := [] })
  | u :: units, d =>
    match d.freeOutputs with
    -- the rest waits for the next slot that comes back
    | [] => ([], { d with decoded := u :: units })
    | slot :: free =>
      let (posted, d) := emit track units
        { d with freeOutputs := free, outputs := d.outputs.set slot (some u) }
      (.outputReady track slot u.pts u.payload :: posted, d)

/-- Take a slot back: the unit that it held. -/
def takeBack (d : EchoDecoder) (slot : Nat) : Except DecoderError AccessUnit × EchoDecoder :=
  match d.outputs[slot]?.join with
  | some u =>
    (return u, { d with
      freeOutputs := d.freeOutputs ++ [slot]
      outputs := d.outputs.set slot none })
  | none => (throw (.failed s!"slot {slot} not handed out"), d)

end EchoDecoder

namespace Simulation

/-- Let a decoder hand out what it has. -/
def emit (s : Simulation) (t : Track) (d : EchoDecoder) : List Message × Simulation :=
  let (posted, d) := d.emit t.number d.decoded
  (posted, { s with decoders := s.decoders.set t (some d) })

def queueInput (s : Simulation) (t : Track) (d : EchoDecoder) (slot : Nat) (u : AccessUnit) :
    (Except DecoderError Unit × List Message) × Simulation :=
  let d := { d with attempts := d.attempts + 1 }
  let tried := { s with decoders := s.decoders.set t (some d) }
  if s.faults.failingTrack = some t.number then ((throw (.failed "injected failure"), []), tried)
  else if 0 < s.faults.busyQueues then
    ((throw .busy, []), { tried with faults.busyQueues := s.faults.busyQueues - 1 })
  else
    let d := { d with queued := d.queued ++ [u.pts], decoded := d.decoded ++ [u] }
    let (posted, s) := tried.emit t d
    ((return, .inputsAvailable t.number [slot] :: posted), s)

def returnOutput (s : Simulation) (t : Track) (d : EchoDecoder) (slot : Nat) (render : Bool) :
    (Except DecoderError Unit × List Message) × Simulation :=
  if 0 < s.faults.deferredReturns then
    ((throw .busy, []), { s with faults.deferredReturns := s.faults.deferredReturns - 1 })
  else match d.takeBack slot with
  | (.error e, _) => ((throw e, []), s)
  | (.ok u, d) =>
    let (d, s) :=
      if render then
        ({ d with rendered := d.rendered ++ [slot] },
          if d.onSurface then { s with presented := s.presented ++ [u] } else s)
      else
        ({ d with released := d.released ++ [slot] },
          { s with journal := s.journal ++ [.outputRelease t.number slot] })
    -- the free slot takes the next decoded unit at once
    let (posted, s) := s.emit t d
    ((return, posted), s)

def decoder (devices : SimulatedDevices) (t : Track) (c : DecoderCall) (s : Simulation) :
    (Except DecoderError Unit × List Message) × Simulation :=
  match s.decoders.get t with
  | none => ((return, []), s)
  | some d =>
    match c with
    | .configure _ onSurface =>
      ((return, []), { s with decoders := s.decoders.set t (some { d with onSurface }) })
    | .start => ((return, [.inputsAvailable t.number (List.range devices.inputs)]), s)
    | .stop =>
      ((return, []), { s with
        decoders := s.decoders.set t (some { d with stopped := true })
        journal := s.journal ++ [.decoderStop t.number] })
    | .release =>
      ((return, []), { s with
        decoders := s.decoders.set t (some { d with freed := true })
        journal := s.journal ++ [.decoderRelease t.number] })
    | .queueInput slot u => s.queueInput t d slot u
    | .releaseOutput slot => s.returnOutput t d slot false
    | .renderOutput slot => s.returnOutput t d slot true

def audioDevice (devices : SimulatedDevices) : AudioDevice Simulation where
  frameCount _ := devices.frames
  frameSize _ := AudioRing.frameSize
  sampleRate _ := AudioRing.sampleRate
  position s := s.ring.played
  write bytes s :=
    let (taken, ring) := s.ring.write devices.frames bytes
    (taken, { s with ring })
  stop s := { s with ring.stopped := true, journal := s.journal ++ [.audioStop] }

def platform (devices : SimulatedDevices) : Platform Simulation where
  createDecoder t _ s :=
    (return, { s with decoders := s.decoders.set t (some (.new devices.outputs)) })
  decoder := decoder devices
  inputSlots _ _ := devices.inputs
  outputSlots _ _ := devices.outputs
  createAudio _ s := (return, s)
  audio := audioDevice devices
  stopSurface s := { s with journal := s.journal ++ [.surfaceStop] }

end Simulation

end Playout
