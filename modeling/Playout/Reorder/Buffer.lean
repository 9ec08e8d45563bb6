import Playout.Sequence.Number
import Playout.Time.Checked

/-!
# Ordered delivery with a bounded wait

A `ReorderBuffer` takes units in any order, repeated ones included, and hands them out in
strictly increasing order. When the unit that should come next is missing it opens a wait
window. While the window is open it asks once for the missing unit; once the window is as old
as the grace time it gives the missing numbers up and goes on behind them.

`insert` puts a unit in, `next` hands one out, if the clock allows it, and says what was
asked for or given up. The age of the window and its deadline are counted in integers; the
operations that count them in 64-bit words, `nextChecked` and `deadlineChecked`, end in an
`Overflow` where a word would wrap around.
-/

namespace Playout

/-- What the buffer tells the sender's side while it waits. -/
inductive LossEvent where
  /-- This unit is missing; send it again. -/
  | request (missing : SeqNumber)
  /-- These numbers, the last included, were given up. -/
  | lost (first last : SeqNumber)
deriving DecidableEq, Inhabited, Repr

/-- A unit handed out in order. -/
structure Delivery where
  unit : MediaUnit
  /-- Timestamps start afresh here: the first unit of the stream -/
  discontinuity : Bool
deriving DecidableEq, Inhabited, Repr

/-- How many units met which fate. -/
structure ReorderCounts where
  delivered : Nat := 0
  /-- Refused: the number was waiting already -/
  duplicates : Nat := 0
  /-- Dropped: delivery had passed the number -/
  stale : Nat := 0
  skipped : Nat := 0
  requests : Nat := 0
  /-- Delivered after they had been asked for -/
  recovered : Nat := 0
deriving DecidableEq, Inhabited, Repr

/-- Units waiting for their turn. -/
structure ReorderBuffer where
  /-- Age in microseconds at which an open window ends -/
  grace : Int
  /-- Waiting units, in increasing order -/
  pending : List MediaUnit := []
  pendingBytes : Nat := 0
  lastDelivered : Option SeqNumber := none
  /-- When the open wait window began -/
  gapOpened : Option Int := none
  /-- The missing unit has been asked for -/
  requested : Bool := false
  counts : ReorderCounts := {}
deriving DecidableEq, Inhabited, Repr

namespace ReorderBuffer

/-! ### Putting in -/

/-- `units` with `u` at its place, or `none` if its number is there already. -/
def place (u : MediaUnit) : List MediaUnit → Option (List MediaUnit)
  | [] => some [u]
  | v :: rest =>
    if u.seq < v.seq then some (u :: v :: rest)
    else if u.seq = v.seq then none
    else (place u rest).map (v :: ·)

/-- Take a unit in; `false` if its number is waiting already. -/
def insert (b : ReorderBuffer) (u : MediaUnit) : Bool × ReorderBuffer :=
  match place u b.pending with
  | some units => (true, { b with pending := units, pendingBytes := b.pendingBytes + u.size })
  | none => (false, { b with counts.duplicates := b.counts.duplicates + 1 })

/-! ### Handing out -/

/-- What one call of `next` brings. -/
structure Turn where
  delivery : Option Delivery := none
  event : Option LossEvent := none
deriving DecidableEq, Inhabited, Repr

def totalSize (units : List MediaUnit) : Nat := units.foldr (fun u n => u.size + n) 0

/-- Drop the units at the front that delivery has passed. -/
def dropStale (b : ReorderBuffer) : ReorderBuffer :=
  match b.lastDelivered with
  | none => b
  | some last =>
    -- waiting units are in order, so those that delivery has passed stand in front
    let stale := b.pending.takeWhile (fun u => decide (u.seq ≤ last))
    { b with
      pending := b.pending.dropWhile (fun u => decide (u.seq ≤ last))
      pendingBytes := b.pendingBytes - totalSize stale
      counts.stale := b.counts.stale + stale.length }

/-- Hand out `u`, which stands before `rest`, and close the wait window. -/
def deliver (b : ReorderBuffer) (u : MediaUnit) (rest : List MediaUnit) : ReorderBuffer :=
  { b with
    pending := rest
    pendingBytes := b.pendingBytes - u.size
    lastDelivered := some u.seq
    gapOpened := none
    requested := false
    counts.delivered := b.counts.delivered + 1 }

/-- Nothing waits: open the window, and forget what was asked for. -/
def idle (b : ReorderBuffer) (now : Int) : ReorderBuffer :=
  { b with gapOpened := some (b.gapOpened.getD now), requested := false }

/-- The unit `u` waits in front, but `expected` should come before it. -/
def wait (b : ReorderBuffer) (now : Int) (expected : SeqNumber) (u : MediaUnit)
    (rest : List MediaUnit) : Turn × ReorderBuffer :=
  match b.gapOpened with
  -- the window opens, and only a later turn may ask for what is missing
  | none => ({}, { b with gapOpened := some now })
  | some opened =>
    if now - opened < b.grace then
      if b.requested then ({}, b)
      else
        ({ event := some (.request expected) },
          { b with requested := true, counts.requests := b.counts.requests + 1 })
    else
      -- the window is over: the numbers before `u` are given up, and `u` waits no longer
      ({ delivery := some ⟨u, false⟩, event := some (.lost expected u.seq.previous) },
        { b with counts.skipped := b.counts.skipped + (u.seq - expected).toNat }.deliver u rest)

/-- Hand out the unit that comes next, if there is one and the clock allows it. -/
def next (b : ReorderBuffer) (now : Int) : Turn × ReorderBuffer :=
  let b := b.dropStale
  match b.pending, b.lastDelivered with
  | [], _ => ({}, b.idle now)
  -- the stream begins with whatever comes first
  | u :: rest, none => ({ delivery := some ⟨u, true⟩ }, b.deliver u rest)
  | u :: rest, some last =>
    if u.seq = last.next then
      -- the unit counts as recovered if it was asked for, even if it was only late
      let recovered := b.counts.recovered + if b.requested then 1 else 0
      ({ delivery := some ⟨u, false⟩ }, { b with counts.recovered := recovered }.deliver u rest)
    else b.wait now last.next u rest

/-- When a buffer that waits will give its gap up. -/
def skipDeadline? (b : ReorderBuffer) : Option Int :=
  match b.pending, b.gapOpened with
  | _ :: _, some opened => some (opened + b.grace)
  | _, _ => none

/-! ### Emptying it -/

theorem pending_dropStale_length_le (b : ReorderBuffer) :
    b.dropStale.pending.length ≤ b.pending.length := by
  unfold dropStale
  split
  · exact Nat.le_refl _
  · exact (List.dropWhile_sublist _).length_le

/-- A delivery takes a unit out. -/
theorem pending_next_length_lt {b b' : ReorderBuffer} {now : Int} {d : Delivery}
    {event : Option LossEvent} (h : b.next now = (⟨some d, event⟩, b')) :
    b'.pending.length < b.pending.length := by
  have hle := b.pending_dropStale_length_le
  simp only [next, wait] at h
  split at h
  · simp at h
  · next heq _ => -- the first delivery
    simp only [Prod.mk.injEq] at h
    rw [← h.2]
    rw [heq, List.length_cons] at hle
    simp only [deliver]; omega
  · next heq _ => -- a delivery in sequence, or behind a gap whose window is over
    rw [heq] at hle
    simp only [List.length_cons] at hle
    split at h
    · simp only [Prod.mk.injEq] at h
      rw [← h.2]
      simp only [deliver]; omega
    · split at h
      · simp at h
      · split at h
        · split at h <;> simp at h
        · simp only [Prod.mk.injEq] at h
          rw [← h.2]
          simp only [deliver]; omega

/-! ### Delivery by the clock

The operations that count with clock readings, in words: the age of the open window, and the
deadline. -/

/-- `wait`, with the age of the window in a word. -/
def waitChecked (b : ReorderBuffer) (now : Int) (expected : SeqNumber) (u : MediaUnit)
    (rest : List MediaUnit) : Checked (Turn × ReorderBuffer) :=
  match b.gapOpened with
  -- without a window no time is computed, so nothing can overflow
  | none => return b.wait now expected u rest
  | some opened => do
    let age ← Checked.difference now opened
    return b.wait (opened + age) expected u rest

/-- `next`, with the age of the window in a word. -/
def nextChecked (b : ReorderBuffer) (now : Int) : Checked (Turn × ReorderBuffer) :=
  match b.dropStale.pending, b.lastDelivered with
  | u :: rest, some last =>
    if u.seq = last.next then return b.next now
    else b.dropStale.waitChecked now last.next u rest
  | _, _ => return b.next now

/-- `skipDeadline?` in a word. -/
def deadlineChecked (b : ReorderBuffer) : Checked (Option Int) :=
  match b.pending, b.gapOpened with
  | _ :: _, some opened => do return some (← Checked.sum opened b.grace)
  | _, _ => return none

/-! ### Diagnostics -/

/-- An optional value as diagnostics show it. -/
def optionLabel {α : Type} (label : α → String) : Option α → String
  | none => "None"
  | some a => s!"Some({label a})"

def label (b : ReorderBuffer) : String :=
  s!"ReorderBuffer \x7b pending: {b.pending.length}, pending_bytes: {b.pendingBytes}, "
    ++ s!"last_delivered: {optionLabel SeqNumber.label b.lastDelivered}, "
    ++ s!"gap_opened_at_us: {optionLabel toString b.gapOpened}, "
    ++ s!"retransmission_requested: {b.requested} \x7d"

end ReorderBuffer

end Playout
