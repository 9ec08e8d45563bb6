import Playout.Decode.Pipeline
import Playout.Session.Platform
import Playout.Timer.Queue
import Playout.Video.Scheduler

/-!
# A session

A `Session` drives one video and one audio track. It takes one message at a time and handles
it to the end; what has to happen later it posts to itself through the timer queue. Every
operation is an action on the session and its world. The clock goes on while a message is handled,
so an operation takes what the clock reads at each place where it looks (`Readings`).

A fatal fault tears the session down before it is answered. Once it is stopped, by a fault, by
a shutdown or by `teardown`, a session does nothing more.
-/

namespace Playout

/-- What a session has done. -/
structure SessionCounts where
  videoFrames : Nat := 0
  videoFramesLate : Nat := 0
  audioBytesWritten : Nat := 0
  accessUnits : Nat := 0
deriving DecidableEq, Inhabited, Repr

/-- What the clock reads while one message is handled, for each use of it, in their order. -/
structure Readings where
  /-- By which a timer is due that brings the message -/
  timers : Int
  /-- By which frames are due -/
  frames : Int
  /-- From which the wait for what the message posts is counted -/
  posting : Int
  /-- From which the wait for a retry is counted -/
  retry : PerTrack Int
deriving DecidableEq, Inhabited, Repr

namespace Readings

/-- The readings of a clock that stands still. -/
@[reducible] def still (now : Int) : Readings := ⟨now, now, now, .both now⟩

/-- The readings in the order in which they are made. -/
def inOrder (r : Readings) : List Int :=
  [r.timers, r.frames, r.posting, r.retry.video, r.retry.audio]

end Readings

/-- Two tracks, their renderers and the timers between them. -/
structure Session where
  scheduler : Scheduler
  pipelines : PerTrack (Option Pipeline) := .both none
  /-- The audio renderer, once the audio track is set up -/
  pacer : Option Pacer := none
  timers : TimerQueue Message := {}
  /-- Counts the video wake-ups; only the latest is obeyed -/
  generation : Nat := 0
  /-- A retry for the decoder of the track waits in the timers -/
  retryArmed : PerTrack Bool := .both false
  accessUnits : Nat := 0
  stopped : Bool := false
  /-- The counts as others see them: those after the last message -/
  published : SessionCounts := {}
deriving DecidableEq, Inhabited, Repr

namespace Session

variable {σ α : Type}

/-- A session whose video frames are late `tolerance` microseconds after their time. -/
def new (tolerance : Int) : Session := { scheduler := { tolerance } }

/-- Microseconds until work that a decoder was too busy for is tried again. -/
def retryDelay : Nat := 10000

def counts (s : Session) : SessionCounts where
  videoFrames := s.scheduler.frames
  videoFramesLate := s.scheduler.framesLate
  audioBytesWritten := (s.pacer.map (·.bytesWritten)).getD 0
  accessUnits := s.accessUnits

def nextDue (s : Session) : Option Int := s.timers.nextDue

/-- An action of a session in a world with devices `σ`. -/
abbrev Step (σ : Type) := Action (Session × World σ)

/-! ### Parts of operations -/

def update (f : Session → Session) : Step σ Unit := fun (s, w) => .ok () (f s, w)

def onDevices (f : σ → α × σ) : Step σ α := .onSecond (.use (World.use f))

/-- Show the counts to others. -/
def publish : Step σ Unit := update fun s => { s with published := s.counts }

/-- Post a message to the session itself, `delay` microseconds from `now`. -/
def schedule (now : Int) (delay : Nat) (m : Message) : Step σ Unit :=
  update fun s => { s with timers := s.timers.schedule (now + delay) m }

/-- Ask for a new video wake-up `delay` microseconds from `now`; it replaces the one before. -/
def armVideo (now : Int) (delay : Nat) : Step σ Unit := do
  -- the wake-up before stays in the timers, but its generation is no longer obeyed
  update fun s => { s with generation := s.generation + 1 }
  let (s, _) ← get
  schedule now delay (.renderVideo s.generation)

/-- The track with a number. -/
def trackOf (track : Nat) : Step σ Track :=
  match Track.ofNumber? track with
  | some t => return t
  | none => throw (.unknownTrack track)

/-- Run an action on the pipeline `p` of a track and the world. -/
def onPipeline (t : Track) (p : Pipeline) (a : Pipeline.Step (World σ) α) : Step σ α :=
  .focus (fun (_, w) => (p, w))
    (fun (p, w) (s, _) => ({ s with pipelines := s.pipelines.set t (some p) }, w)) a

/-- Run an action on the pipeline of a track that is set up. -/
def withPipeline (P : Platform σ) (track : Nat)
    (a : DecoderDevice (World σ) → Pipeline.Step (World σ) α) : Step σ α := do
  let t ← trackOf track
  let (s, _) ← get
  match s.pipelines.get t with
  | some p => onPipeline t p (a (P.decoderDevice t))
  | none => throw (.notConfigured track)

/-- Run an action on the video renderer, the pipeline `p` behind it and the world. -/
def onVideo (p : Pipeline) (a : Scheduler.Step (Pipeline × World σ) α) : Step σ α :=
  .focus (fun (s, w) => (s.scheduler, p, w))
    (fun (v, p, w) (s, _) =>
      ({ s with scheduler := v, pipelines := s.pipelines.set .video (some p) }, w)) a

/-- Run an action on the audio renderer `pacer`, the pipeline `p` behind it and the world. -/
def onAudio (pacer : Pacer) (p : Pipeline) (a : Pacer.Step (Pipeline × World σ) α) : Step σ α :=
  .focus (fun (_, w) => (pacer, p, w))
    (fun (pacer, p, w) (s, _) =>
      ({ s with pacer := some pacer, pipelines := s.pipelines.set .audio (some p) }, w)) a

/-- How the renderer of a track returns a slot to the decoder. -/
def giveBack (P : Platform σ) (t : Track) (kind : ReturnKind) (slot : Nat) :
    Action (Pipeline × World σ) Unit :=
  Pipeline.returnOutput (P.decoderDevice t) slot kind

/-! ### Teardown -/

/-- Tear down the pipeline of a track, if the track is set up. -/
def teardownPipeline (P : Platform σ) (t : Track) : Step σ Unit := do
  let (s, _) ← get
  match s.pipelines.get t with
  | some p => onPipeline t p (Pipeline.teardown (P.decoderDevice t))
  | none => return

/-- Return every frame that waits to be presented. -/
def releaseVideo (P : Platform σ) : Step σ Unit := do
  let (s, _) ← get
  match s.pipelines.video with
  | some p => onVideo p (Scheduler.releaseAll (giveBack P .video .release))
  | none => return

/-- Return every audio buffer that waits to be written. -/
def releaseAudio (P : Platform σ) : Step σ Unit := do
  let (s, _) ← get
  match s.pacer, s.pipelines.audio with
  | some pacer, some p => onAudio pacer p (Pacer.releaseAll (giveBack P .audio .release))
  | _, _ => return

/-- Stop: drop the timers, return what is held, stop the decoders, then the outputs. A session
that is stopped stays as it is. -/
def teardown (P : Platform σ) : Step σ Unit := do
  let (s, _) ← get
  if s.stopped then return
  -- stopped before anything else: whatever fails below, a second teardown does nothing
  update fun s => { s with stopped := true, timers := s.timers.clear, retryArmed := .both false }
  releaseVideo P
  releaseAudio P
  teardownPipeline P .video
  teardownPipeline P .audio
  let (s, _) ← get
  if s.pacer.isSome then onDevices fun d => ((), P.audio.stop d)
  onDevices fun d => ((), P.stopSurface d)
  publish

/-! ### Messages -/

/-- Create and start a decoder for a track; answer its pipeline. -/
def startPipeline (P : Platform σ) (t : Track) (format : MediaFormat) : Step σ Pipeline := do
  Action.ofExcept (← onDevices (P.createDecoder t format))
  let (_, w) ← get
  -- the new pipeline is no part of the session yet, so a fault leaves nothing of it behind
  match Pipeline.configure (P.decoderDevice t) format (t = .video) ({ track := t.number }, w) with
  | .ok () (p, w) =>
    Action.onSecond (set w)
    return p
  | .error e (_, w) =>
    Action.onSecond (set w)
    throw e

/-- Set a track up. If anything fails, the track stays as it was. -/
def setFormat (P : Platform σ) (track : Nat) (format : MediaFormat) : Step σ Unit := do
  let t ← trackOf track
  let (s, _) ← get
  if (s.pipelines.get t).isSome then throw (.alreadyConfigured track)
  let p ← startPipeline P t format
  -- a decoder that has started is dropped with its pipeline if its audio output fails
  if t = .audio then
    Action.ofExcept (← onDevices (P.createAudio format))
    update ({ · with pacer := some {} })
  update fun s => { s with pipelines := s.pipelines.set t (some p) }

/-- Give decoded media to the renderer of its track. -/
def outputReady (P : Platform σ) (now : Readings) (track slot : Nat) (pts : Int)
    (payload : List UInt8) : Step σ Unit := do
  -- the slot is held from here on, also if the renderer then refuses it
  let output ← withPipeline P track fun _ => Pipeline.outputReady slot pts payload
  match ← trackOf track with
  | .audio =>
    let (s, _) ← get
    match s.pacer with
    | none => throw (.notConfigured track)
    | some pacer =>
      let delay ← Action.focus (fun (_, w) => (pacer, w))
        (fun (pacer, w) (s, _) => ({ s with pacer := some pacer }, w))
        (Pacer.enqueue P.audioDevice output)
      if let some delay := delay then schedule now.posting delay .pushAudio
  | .video =>
    let (s, _) ← get
    -- due by one look at the clock, while the wait is counted from the next one
    let (delay, scheduler) := s.scheduler.enqueue output now.frames
    update ({ · with scheduler })
    if let some delay := delay then armVideo now.posting delay

/-- Write audio. -/
def pushAudio (P : Platform σ) (now : Readings) : Step σ Unit := do
  let (s, _) ← get
  match s.pacer, s.pipelines.audio with
  | some pacer, some p =>
    if let some delay ← onAudio pacer p
        (Pacer.push P.audioDevice.onSecond (giveBack P .audio .release)) then
      schedule now.posting delay .pushAudio
  -- a push may come for a track that is not set up
  | _, _ => return

/-- Present video, unless the wake-up has been replaced. -/
def renderVideo (P : Platform σ) (now : Readings) (generation : Nat) : Step σ Unit := do
  let (s, _) ← get
  if generation ≠ s.generation then return
  match s.pipelines.video with
  | none => return
  | some p =>
    if let some delay ← onVideo p (Scheduler.renderDue (giveBack P .video .render) now.frames) then
      armVideo now.posting delay

/-- A retry for the track leaves the timers. -/
def disarmRetry (track : Nat) : Step σ Unit :=
  match Track.ofNumber? track with
  | some t => update fun s => { s with retryArmed := s.retryArmed.set t false }
  | none => return

/-- Do what a message says. -/
def dispatch (P : Platform σ) (now : Readings) : Message → Step σ Unit
  | .setFormat track format => setFormat P track format
  | .queueUnit track unit => do
    -- counted as soon as it comes, also for a track that is not set up
    update fun s => { s with accessUnits := s.accessUnits + 1 }
    withPipeline P track (Pipeline.submit · unit)
  | .inputsAvailable track slots => withPipeline P track (Pipeline.inputsAvailable · slots)
  | .outputReady track slot pts payload => outputReady P now track slot pts payload
  | .pushAudio => pushAudio P now
  | .retryDecoder track => do
    -- disarmed first, so that a decoder that is still busy can have another retry
    disarmRetry track
    withPipeline P track Pipeline.retry
  | .renderVideo generation => renderVideo P now generation
  | .shutdown => teardown P

/-- Post a retry for a track whose decoder was busy, unless one waits already. -/
def scheduleRetry (now : Int) (t : Track) : Step σ Unit := do
  let (s, _) ← get
  match s.pipelines.get t with
  | none => return
  | some p =>
    let busy ← onPipeline t p Pipeline.takeRetry
    if busy && !s.retryArmed.get t then
      update fun s => { s with retryArmed := s.retryArmed.set t true }
      schedule now retryDelay (.retryDecoder t.number)

/-- Handle one message. -/
def handle (P : Platform σ) (now : Readings) (m : Message) : Step σ Unit := do
  let (s, _) ← get
  if s.stopped then return
  -- the outcome is kept until the retries are armed: a fault may have left work deferred too
  let outcome ← Action.attempt (dispatch P now m)
  let (s, _) ← get
  unless s.stopped do
    scheduleRetry now.retry.video .video
    scheduleRetry now.retry.audio .audio
  publish
  match outcome with
  | .ok () => return
  | .error e =>
    if e.isFatal then
      -- the fault that stopped the session is answered, not one that stopping it brings
      let _ ← Action.attempt (teardown P)
    throw e

end Session

end Playout
