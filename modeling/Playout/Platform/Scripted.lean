import Playout.Session.Platform
import Playout.Text.Reader

/-!
# A platform that follows a script

Every device answers as a script tells it, and every call is recorded with its answer. A
script has a row of answers for each call by name, such as `decoder0.queue_input`; when a row
is used up the call succeeds.
-/

namespace Playout

inductive Entry where
  | text (s : String)
  | flag (b : Bool)
  | number (n : Int)
  | numbers (ns : List Nat)
  | bytes (bs : List UInt8)
deriving DecidableEq, Inhabited, Repr

/-- A recorded call: its name, what it was given, and what it answered. -/
structure RecordedCall where
  name : String
  entries : List Entry := []
deriving DecidableEq, Inhabited, Repr

/-- The answers to come, and the calls so far. -/
structure Script where
  answers : List (String × List String) := []
  calls : List RecordedCall := []
  /-- Frames that the audio output has played -/
  position : UInt32 := 0
deriving DecidableEq, Inhabited, Repr

/-- The fixed properties of scripted devices. -/
structure ScriptedDevices where
  inputs : Nat := 4
  outputs : Nat := 4
  frames : Nat := 100
  frameSize : Nat := 4
  sampleRate : Nat := 48000
  /-- The surface records that it is stopped -/
  surfaceRecords : Bool := true
deriving DecidableEq, Inhabited, Repr

namespace Script

/-- Put more answers behind those of a call. -/
def extend (s : Script) (name : String) (more : List String) : Script :=
  match s.answers.lookup name with
  | none => { s with answers := s.answers ++ [(name, more)] }
  | some _ =>
    let put := fun (n, row) => if n = name then (n, row ++ more) else (n, row)
    { s with answers := s.answers.map put }

def answer (s : Script) (name : String) : String × Script :=
  match s.answers.lookup name with
  | some (a :: rest) =>
    let put := fun (n, row) => if n = name then (n, rest) else (n, row)
    (a, { s with answers := s.answers.map put })
  | _ => ("ok", s)

def record (s : Script) (name : String) (entries : List Entry) : Script :=
  { s with calls := s.calls ++ [⟨name, entries⟩] }

/-- The audio output plays some frames. -/
def play (s : Script) (frames : UInt32) : Script := { s with position := s.position + frames }

/-- What a decoder means by an answer. -/
def decoderAnswer (a : String) : Except DecoderError Unit :=
  if a = "ok" then return
  else if a = "busy" then throw .busy
  else throw (.failed a)

def callName : DecoderCall → String
  | .configure .. => "configure"
  | .start => "start"
  | .stop => "stop"
  | .release => "release"
  | .queueInput .. => "queue_input"
  | .releaseOutput _ => "release_output"
  | .renderOutput _ => "render_output"

/-- What a decoder's call is given. -/
def callEntries : DecoderCall → List Entry
  | .configure format onSurface => [.text format.kind.label, .text format.mime, .flag onSurface]
  | .start | .stop | .release => []
  | .queueInput slot unit => [.number slot, .bytes unit.payload, .number unit.pts]
  | .releaseOutput slot | .renderOutput slot => [.number slot]

/-- The decoder named `who`. Its release uses up and records an answer as the other calls do,
but succeeds whatever the answer is. -/
def decoder (who : String) (c : DecoderCall) (s : Script) : Except DecoderError Unit × Script :=
  let name := s!"{who}.{callName c}"
  let (a, s) := s.answer name
  let answered := if c = .release then .ok () else decoderAnswer a
  (answered, s.record name (callEntries c ++ [.text a]))

/-- A number of bytes: 64 bits in decimal digits, with or without a plus sign. -/
def wholeNumber? (a : String) : Option Nat :=
  TextReader.all? (do
    let _ ← TextReader.attempt (TextReader.char '+')
    TextReader.number 10 UInt64.size none true) a

/-- The audio output takes all, as many bytes as the answer says, or fails. -/
def writeAudio (bytes : List UInt8) (s : Script) : Except String Nat × Script :=
  let (a, s) := s.answer "audio.write"
  let taken : Except String Nat :=
    if a = "ok" then return bytes.length
    else match wholeNumber? a with
      | some n => return min n bytes.length
      | none => throw a
  let accepted := match taken with
    | .ok n => bytes.take n
    | .error _ => []
  (taken, s.record "audio.write" [.number bytes.length, .bytes accepted])

def backendAnswer (a : String) : Except Fault Unit :=
  match decoderAnswer a with
  | .ok () => return
  | .error e => throw (.decoder 8 e)

def audioDevice (d : ScriptedDevices) : AudioDevice Script where
  frameCount _ := d.frames
  frameSize _ := d.frameSize
  sampleRate _ := d.sampleRate
  position s := s.position
  write := writeAudio
  stop s := s.record "audio.stop" []

/-- The decoder of a pipeline that stands alone. -/
def decoderDevice (d : ScriptedDevices) : DecoderDevice Script where
  call := decoder "decoder"
  inputSlots _ := d.inputs
  outputSlots _ := d.outputs

/-- Something other than a pipeline that takes slots back. -/
def giveBack (render : Bool) (slot : Nat) : Action Script Unit := fun s =>
  let name := if render then "releaser.render_output" else "releaser.release_output"
  let (a, s) := s.answer name
  let s := s.record name [.number slot, .text a]
  if a = "ok" then .ok () s else .error (.slotMisuse 9 slot "scripted failure") s

def platform (d : ScriptedDevices) : Platform Script where
  createDecoder t _ s :=
    let (a, s) := s.answer "backend.create_decoder"
    (backendAnswer a, s.record "backend.create_decoder" [.number t.number, .text a])
  decoder t c s :=
    let (answer, s) := decoder s!"decoder{t.number}" c s
    ((answer, []), s)
  inputSlots _ _ := d.inputs
  outputSlots _ _ := d.outputs
  createAudio format s :=
    let (a, s) := s.answer "backend.create_audio_sink"
    let given := [format.sampleRate.toNat, format.channels.toNat]
    (backendAnswer a, s.record "backend.create_audio_sink" [.numbers given, .text a])
  audio := audioDevice d
  stopSurface s := if d.surfaceRecords then s.record "surface.stop" [] else s

end Script

end Playout
