import Playout.Net.Address
import Playout.Time.Span

/-!
# Settings

What a user can set: the time server, the reorder buffer, video presentation and the
receiver. Every setting has a default. `Settings.check` finds the first value that the
library cannot work with.
-/

namespace Playout

namespace Settings

/-- Where and how to ask for the time. -/
structure TimeServer where
  host : String := "pool.ntp.org"
  port : UInt16 := 123
  /-- How long to wait for a reply, in milliseconds -/
  timeout : UInt64 := 5000
  /-- Exchanges that make one estimate -/
  batchSize : UInt64 := 30
  /-- The pause between two exchanges, in milliseconds -/
  batchSpacing : UInt64 := 33
deriving DecidableEq, Inhabited, Repr

/-- How long to wait for late media. -/
structure Reorder where
  /-- How long a gap may stay open, in milliseconds -/
  graceWindow : UInt64 := 50
deriving DecidableEq, Inhabited, Repr

/-- How to present video. -/
structure Video where
  /-- From what delay on a frame counts as late, in milliseconds -/
  lateTolerance : UInt64 := 15
deriving DecidableEq, Inhabited, Repr

/-- Where media comes from and goes to, and what is sent back. -/
structure Receiver where
  listen : Net.Socket := .v4 ⟨#v[0, 0, 0, 0]⟩ 5004
  output : String := "-"
  /-- Where requests for lost media go, unless they go next to its source -/
  feedback : Option Net.Socket := none
  senderSsrc : UInt32 := 0xdeadbeef
  /-- Bytes that may wait to be received -/
  bufferSize : UInt64 := 262144
  /-- Seconds between two lines of statistics; none are shown for 0. -/
  statisticsInterval : UInt64 := 1
  /-- Seconds between two reports to the sender; none are sent for 0. -/
  reportInterval : UInt64 := 5
  /-- The name under which reports are sent -/
  name : String := "castsink@localhost"
deriving DecidableEq, Inhabited, Repr

end Settings

/-- All settings. -/
structure Settings where
  timeServer : Settings.TimeServer := {}
  reorder : Settings.Reorder := {}
  video : Settings.Video := {}
  receiver : Settings.Receiver := {}
deriving DecidableEq, Inhabited, Repr

namespace Settings

/-! ### Settings that cannot work -/

/-- Why settings cannot work. -/
inductive Misfit where
  | noHost
  | noPort
  | noTimeout
  | noBatch
  | longName
  | noGraceWindow
deriving DecidableEq, Inhabited, Repr

namespace Misfit

/-- The sentence shown to the user. -/
def message (m : Misfit) : String :=
  "Invalid configuration: " ++ match m with
    | noHost => "sntp.server is empty"
    | noPort => "sntp.port must be non-zero"
    | noTimeout => "sntp.timeout_ms must be non-zero"
    | noBatch => "sntp.batch_size must be non-zero"
    | longName => "receiver.cname is longer than 255 bytes"
    | noGraceWindow => "reorder.grace_window_ms must be non-zero"

end Misfit

/-- The first thing that cannot work, if there is one. -/
def misfit? (s : Settings) : Option Misfit :=
  -- the order decides which of several misfits is told
  if s.timeServer.host.isEmpty then some .noHost
  else if s.timeServer.port = 0 then some .noPort
  else if s.timeServer.timeout = 0 then some .noTimeout
  else if s.timeServer.batchSize = 0 then some .noBatch
  else if 255 < s.receiver.name.utf8ByteSize then some .longName
  else if s.reorder.graceWindow = 0 then some .noGraceWindow
  else none

/-- Why settings cannot be had or kept. -/
inductive Error where
  /-- There is no such file. -/
  | unreadable
  /-- The text is no document, or a value has the wrong type. -/
  | malformed
  /-- A number is too great for a document. -/
  | unwritable
  | misfit (m : Misfit)
deriving DecidableEq, Inhabited, Repr

/-- The settings themselves, if they can work. -/
def check (s : Settings) : Except Error Settings :=
  match s.misfit? with
  | some m => throw (.misfit m)
  | none => return s

/-! ### What the settings mean -/

namespace TimeServer

def timeoutSpan (t : TimeServer) : Span := .ofMillis t.timeout.toNat

def spacingSpan (t : TimeServer) : Span := .ofMillis t.batchSpacing.toNat

end TimeServer

/-- How long a gap may stay open. -/
def graceSpan (s : Settings) : Span := .ofMillis s.reorder.graceWindow.toNat

/-- From what delay on a frame counts as late. -/
def toleranceSpan (s : Settings) : Span := .ofMillis s.video.lateTolerance.toNat

namespace Receiver

def statisticsSpan (r : Receiver) : Span := .ofSeconds r.statisticsInterval.toNat

def reportSpan (r : Receiver) : Span := .ofSeconds r.reportInterval.toNat

/-- Where requests go for media from `source`: as set, or to the next higher number there. -/
def feedbackFor (r : Receiver) (source : Net.Socket) : Net.Socket :=
  r.feedback.getD (source.withPort (source.port + 1))

end Receiver

end Settings

end Playout
