import Playout.Settings.Basic
import Playout.Toml.Document

/-!
# Settings files

Settings are kept in a TOML document with one table for each of their four parts. A key that
is missing has its default value, and a key that means nothing is passed over. The fields of
a part may also stand in an array, in the order in which they are written; then only the last
fields may be missing. Settings are written in full, except that no feedback address is
written where none is set.
-/

namespace Playout.Settings

open Toml (Value Entries)

/-! ### Reading -/

/-- What a document says about the fields of a part. -/
inductive Fields where
  | named (entries : Entries)
  | listed (items : List Value)
deriving Inhabited, Repr

namespace Fields

/-- The fields in a value. A moment has fields too, but none that means anything. -/
def ofValue? : Value → Option Fields
  | .table _ entries => some (.named entries)
  | .moment _ => some (.named [])
  | .array items => some (.listed items)
  | .tables elements => some (.listed (elements.map (.table .header)))
  | _ => none

/-- The fields of the part `name` of a document; there are none if the part is missing. -/
def ofPart? (document : Entries) (name : String) : Option Fields :=
  match document.lookup name with
  | none => some (.named [])
  | some v => ofValue? v

/-- The value of a field, given by its name and its place. -/
def find? (f : Fields) (name : String) (place : Nat) : Option Value :=
  match f with
  | named entries => entries.lookup name
  | listed items => items[place]?

/-- A field, or its default value if it is missing. -/
def get {α : Type} (f : Fields) (name : String) (place : Nat) (read : Value → Option α)
    (default : α) : Option α :=
  match f.find? name place with
  | none => some default
  | some v => read v

/-- A field without a default value: it may be missing only where fields have names. -/
def get? {α : Type} (f : Fields) (name : String) (place : Nat) (read : Value → Option α) :
    Option (Option α) :=
  match f, f.find? name place with
  | _, some v => some <$> read v
  | named _, none => some none
  | listed _, none => none

end Fields

def string? : Value → Option String
  | .string s => some s
  | _ => none

/-- A number from 0 to below `bound`. -/
def natBelow? (bound : Nat) : Value → Option Nat
  | .integer n => if 0 ≤ n ∧ n < bound then some n.toNat else none
  | _ => none

def uint16? (v : Value) : Option UInt16 := (natBelow? UInt16.size v).map .ofNat

def uint32? (v : Value) : Option UInt32 := (natBelow? UInt32.size v).map .ofNat

def uint64? (v : Value) : Option UInt64 := (natBelow? UInt64.size v).map .ofNat

def socket? (v : Value) : Option Net.Socket := do Net.Socket.ofText? (← string? v)

def TimeServer.ofFields? (f : Fields) : Option TimeServer := do
  let d : TimeServer := {}
  return {
    host := ← f.get "server" 0 string? d.host
    port := ← f.get "port" 1 uint16? d.port
    timeout := ← f.get "timeout_ms" 2 uint64? d.timeout
    batchSize := ← f.get "batch_size" 3 uint64? d.batchSize
    batchSpacing := ← f.get "batch_spacing_ms" 4 uint64? d.batchSpacing }

def Reorder.ofFields? (f : Fields) : Option Reorder := do
  let d : Reorder := {}
  return { graceWindow := ← f.get "grace_window_ms" 0 uint64? d.graceWindow }

def Video.ofFields? (f : Fields) : Option Video := do
  let d : Video := {}
  return { lateTolerance := ← f.get "late_tolerance_ms" 0 uint64? d.lateTolerance }

def Receiver.ofFields? (f : Fields) : Option Receiver := do
  let d : Receiver := {}
  return {
    listen := ← f.get "listen" 0 socket? d.listen
    output := ← f.get "output" 1 string? d.output
    feedback := ← f.get? "feedback" 2 socket?
    senderSsrc := ← f.get "sender_ssrc" 3 uint32? d.senderSsrc
    bufferSize := ← f.get "recv_buffer_size" 4 uint64? d.bufferSize
    statisticsInterval := ← f.get "stats_interval_secs" 5 uint64? d.statisticsInterval
    reportInterval := ← f.get "report_interval_secs" 6 uint64? d.reportInterval
    name := ← f.get "cname" 7 string? d.name }

/-- The settings in a document. -/
def ofDocument? (document : Entries) : Option Settings :=
  return {
    timeServer := ← TimeServer.ofFields? (← Fields.ofPart? document "sntp")
    reorder := ← Reorder.ofFields? (← Fields.ofPart? document "reorder")
    video := ← Video.ofFields? (← Fields.ofPart? document "video")
    receiver := ← Receiver.ofFields? (← Fields.ofPart? document "receiver") }

/-- The settings in a text, if they can work. -/
def ofText (text : String) : Except Error Settings := do
  -- a document that has the wrong types is refused before any value is checked
  match (Toml.read? text).bind ofDocument? with
  | none => throw .malformed
  | some s => s.check

/-- The settings in a file with the given contents; `none` is a file that cannot be read. -/
def ofFile : (contents : Option String) → Except Error Settings
  | none => throw .unreadable
  | some text => ofText text

/-! ### Writing -/

/-- A field as it is written. -/
inductive Written where
  | text (s : String)
  | number (n : Nat)
deriving DecidableEq, Inhabited, Repr

/-- One line; a number must be one that can be read. -/
def line? : String × Written → Option String
  | (name, .text s) => some s!"{name} = {Toml.Quoted.write s}\n"
  | (name, .number n) => if Toml.Literal.isWhole n then some s!"{name} = {n}\n" else none

/-- The header of a part and its fields. -/
def part? (name : String) (fields : List (String × Written)) : Option String := do
  return s!"[{name}]\n" ++ String.join (← fields.mapM line?)

def TimeServer.written (t : TimeServer) : List (String × Written) :=
  [("server", .text t.host), ("port", .number t.port.toNat),
    ("timeout_ms", .number t.timeout.toNat), ("batch_size", .number t.batchSize.toNat),
    ("batch_spacing_ms", .number t.batchSpacing.toNat)]

def Reorder.written (r : Reorder) : List (String × Written) :=
  [("grace_window_ms", .number r.graceWindow.toNat)]

def Video.written (v : Video) : List (String × Written) :=
  [("late_tolerance_ms", .number v.lateTolerance.toNat)]

def Receiver.written (r : Receiver) : List (String × Written) :=
  [("listen", .text r.listen.text), ("output", .text r.output)]
    ++ r.feedback.toList.map (fun socket => ("feedback", .text socket.text))
    ++ [("sender_ssrc", .number r.senderSsrc.toNat),
      ("recv_buffer_size", .number r.bufferSize.toNat),
      ("stats_interval_secs", .number r.statisticsInterval.toNat),
      ("report_interval_secs", .number r.reportInterval.toNat), ("cname", .text r.name)]

/-- The settings as a document, with an empty line between two parts. -/
def toText (s : Settings) : Except Error String :=
  let parts? := [("sntp", s.timeServer.written), ("reorder", s.reorder.written),
    ("video", s.video.written), ("receiver", s.receiver.written)].mapM fun (n, fs) => part? n fs
  match parts? with
  | some parts => return "\n".intercalate parts
  | none => throw .unwritable

end Playout.Settings
