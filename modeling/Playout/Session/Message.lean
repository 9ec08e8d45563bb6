import Playout.Decode.Device

/-!
# Tracks and messages

A session has two tracks. Messages name tracks by number, because they come from outside and
may name one that does not exist.
-/

namespace Playout

/-- A track of a session. -/
inductive Track where
  | video
  | audio
deriving DecidableEq, Inhabited, Repr

namespace Track

/-- The number of a track. -/
def number : Track → Nat
  | video => 0
  | audio => 1

/-- The track with a number. -/
def ofNumber? : Nat → Option Track
  | 0 => some video
  | 1 => some audio
  | _ => none

/-- All tracks in the order of their numbers. -/
def all : List Track := [video, audio]

end Track

/-- One value for each track. -/
structure PerTrack (α : Type) where
  video : α
  audio : α
deriving DecidableEq, Inhabited, Repr

namespace PerTrack

variable {α : Type}

/-- The same value for both tracks. -/
def both (a : α) : PerTrack α := ⟨a, a⟩

def get (p : PerTrack α) : Track → α
  | .video => p.video
  | .audio => p.audio

def set (p : PerTrack α) (t : Track) (a : α) : PerTrack α :=
  match t with
  | .video => { p with video := a }
  | .audio => { p with audio := a }

@[simp] theorem get_set_self (p : PerTrack α) (t : Track) (a : α) : (p.set t a).get t = a := by
  cases t <;> rfl

theorem get_set_of_ne (p : PerTrack α) {t u : Track} (h : u ≠ t) (a : α) :
    (p.set t a).get u = p.get u := by
  cases t <;> cases u <;> first | rfl | exact absurd rfl h

end PerTrack

/-- What a session can be sent. -/
inductive Message where
  /-- Set a track up. -/
  | setFormat (track : Nat) (format : MediaFormat)
  | queueUnit (track : Nat) (unit : AccessUnit)
  /-- The decoder of a track has free input slots. -/
  | inputsAvailable (track : Nat) (slots : List Nat)
  /-- The decoder of a track has filled an output slot. -/
  | outputReady (track slot : Nat) (pts : Int) (payload : List UInt8)
  | pushAudio
  /-- Try again what the decoder of a track was too busy for. -/
  | retryDecoder (track : Nat)
  /-- Present video; only the wake-up of the latest generation counts. -/
  | renderVideo (generation : Nat)
  | shutdown
deriving DecidableEq, Inhabited, Repr

end Playout
