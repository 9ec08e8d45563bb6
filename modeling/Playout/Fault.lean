/-!
# Faults

What can go wrong while media is decoded and presented. A fatal fault ends the session; the
others reject one message, or ask for patience. `Action` is a step that may end in a fault:
the state that it reached is kept either way, because devices do not forget what they were
told.
-/

namespace Playout

/-- Why a decoder refuses. -/
inductive DecoderError where
  /-- Not now; ask again later -/
  | busy
  | failed (reason : String)
deriving DecidableEq, Inhabited, Repr

namespace DecoderError

def message : DecoderError → String
  | busy => "Decoder busy, try again later"
  | failed reason => s!"Decoder failure: {reason}"

end DecoderError

/-- Why a step of the session fails. -/
inductive Fault where
  | decoder (track : Nat) (cause : DecoderError)
  | slotMisuse (track slot : Nat) (reason : String)
  | unknownTrack (track : Nat)
  | notConfigured (track : Nat)
  | alreadyConfigured (track : Nat)
  | audioSink (reason : String)
  | mailboxClosed
deriving DecidableEq, Inhabited, Repr

namespace Fault

def message : Fault → String
  | decoder track cause => s!"Decoder fault on track {track}: {cause.message}"
  | slotMisuse track slot reason => s!"Slot misuse on track {track}, slot {slot}: {reason}"
  | unknownTrack track => s!"Unknown track {track}"
  | notConfigured track => s!"Track {track} has no format yet"
  | alreadyConfigured track => s!"Track {track} is already configured"
  | audioSink reason => s!"Audio sink error: {reason}"
  | mailboxClosed => "Session mailbox closed"

def source? : Fault → Option String
  | decoder _ cause => some cause.message
  | audioSink reason => some reason
  | _ => none

/-- Whether the session must end. -/
def isFatal : Fault → Bool
  | decoder _ cause => cause ≠ .busy
  | slotMisuse .. | audioSink _ | mailboxClosed => true
  | unknownTrack _ | notConfigured _ | alreadyConfigured _ => false

end Fault

/-! ### Actions -/

/-- A step on the state `σ` that answers a value or ends in a fault. -/
abbrev Action (σ : Type) := EStateM Fault σ

namespace Action

variable {σ τ α : Type}

/-- Run an action on the part of the state that `get` shows and `put` replaces. -/
def focus (get : σ → τ) (put : τ → σ → σ) (a : Action τ α) : Action σ α := fun s =>
  match a (get s) with
  | .ok x t => .ok x (put t s)
  | .error e t => .error e (put t s)

def onFirst (a : Action σ α) : Action (σ × τ) α := focus Prod.fst (fun s p => (s, p.2)) a

def onSecond (a : Action τ α) : Action (σ × τ) α := focus Prod.snd (fun t p => (p.1, t)) a

/-- Run an action and answer how it ended; a fault ends it, but not what follows. -/
def attempt (a : Action σ α) : Action σ (Except Fault α) := fun s =>
  match a s with
  | .ok x s => .ok (.ok x) s
  | .error e s => .ok (.error e) s

/-- A use of a device: the state moves on and the answer is given. -/
def use (f : σ → α × σ) : Action σ α := fun s =>
  let (x, s) := f s
  .ok x s

/-- Answer, or end in the fault. -/
def ofExcept (r : Except Fault α) : Action σ α := fun s =>
  match r with
  | .ok x => .ok x s
  | .error e => .error e s

end Action

end Playout
