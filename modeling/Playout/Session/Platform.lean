import Playout.Audio.Pacer
import Playout.Session.Message

/-!
# The platform under a session

A `Platform` is everything outside of a session: a backend that creates decoders and the audio
output, these devices themselves, and the surface on which video appears. Its state `σ` is its
own affair; the session only uses the operations. A decoder may answer a call with messages to
the session, which wait in the mailbox of the `World`.
-/

namespace Playout

/-- A backend with its devices, over their state `σ`. -/
structure Platform (σ : Type) where
  createDecoder : Track → MediaFormat → σ → Except Fault Unit × σ
  /-- A call of a decoder: its answer, and what it posts to the session -/
  decoder : Track → DecoderCall → σ → (Except DecoderError Unit × List Message) × σ
  inputSlots : Track → σ → Nat
  outputSlots : Track → σ → Nat
  createAudio : MediaFormat → σ → Except Fault Unit × σ
  audio : AudioDevice σ
  stopSurface : σ → σ

/-- The state of the devices and the messages that wait for the session. -/
structure World (σ : Type) where
  devices : σ
  mailbox : List Message := []

namespace World

variable {σ : Type}

/-- Put a message behind those that wait. -/
def post (w : World σ) (m : Message) : World σ := { w with mailbox := w.mailbox ++ [m] }

/-- Use the devices. -/
def use {α : Type} (f : σ → α × σ) (w : World σ) : α × World σ :=
  let (x, d) := f w.devices
  (x, { w with devices := d })

end World

namespace Platform

variable {σ : Type}

/-- The decoder of a track, posting into the mailbox. -/
def decoderDevice (P : Platform σ) (t : Track) : DecoderDevice (World σ) where
  call c w :=
    let ((answer, posted), d) := P.decoder t c w.devices
    (answer, { devices := d, mailbox := w.mailbox ++ posted })
  inputSlots w := P.inputSlots t w.devices
  outputSlots w := P.outputSlots t w.devices

/-- The audio output. -/
def audioDevice (P : Platform σ) : AudioDevice (World σ) where
  frameCount w := P.audio.frameCount w.devices
  frameSize w := P.audio.frameSize w.devices
  sampleRate w := P.audio.sampleRate w.devices
  position w := P.audio.position w.devices
  write bytes := World.use (P.audio.write bytes)
  stop w := { w with devices := P.audio.stop w.devices }

end Platform

end Playout
