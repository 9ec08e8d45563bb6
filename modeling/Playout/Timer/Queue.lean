/-!
# Timers

A `TimerQueue` keeps items until they are due. The earliest item leaves first, and among
items that are due at the same time the one that was posted first: every item gets a ticket
when it is posted, and `Entry.before` compares due times and then tickets.
-/

namespace Playout

structure TimerEntry (α : Type) where
  /-- Due time in microseconds -/
  due : Int
  /-- Number in the order of posting -/
  ticket : Nat
  item : α
deriving DecidableEq, Inhabited, Repr

/-- Items waiting for their due times. -/
structure TimerQueue (α : Type) where
  entries : List (TimerEntry α) := []
  nextTicket : Nat := 0
deriving DecidableEq, Inhabited, Repr

namespace TimerEntry

variable {α : Type}

/-- Whether `a` leaves before `b`. -/
def before (a b : TimerEntry α) : Bool :=
  a.due < b.due || (a.due = b.due && a.ticket < b.ticket)

/-- The entry that leaves first, and the others in their order. -/
def takeFirst (a : TimerEntry α) : List (TimerEntry α) → TimerEntry α × List (TimerEntry α)
  | [] => (a, [])
  | b :: rest =>
    if b.before a then
      let (first, others) := takeFirst b rest
      (first, a :: others)
    else
      let (first, others) := takeFirst a rest
      (first, b :: others)

end TimerEntry

namespace TimerQueue

variable {α : Type}

def schedule (q : TimerQueue α) (due : Int) (item : α) : TimerQueue α :=
  { entries := ⟨due, q.nextTicket, item⟩ :: q.entries, nextTicket := q.nextTicket + 1 }

/-- The entry that leaves first, and the queue without it. -/
def first? (q : TimerQueue α) : Option (TimerEntry α × TimerQueue α) :=
  match q.entries with
  | [] => none
  | e :: rest =>
    let (first, others) := e.takeFirst rest
    some (first, { q with entries := others })

/-- The first item and the queue without it, if it is due at `now`. -/
def popDue (q : TimerQueue α) (now : Int) : Option (α × TimerQueue α) :=
  match q.first? with
  | some (e, q) => if e.due ≤ now then some (e.item, q) else none
  | none => none

def nextDue (q : TimerQueue α) : Option Int := q.first?.map (·.1.due)

/-- Drop every item; tickets go on from where they are. -/
def clear (q : TimerQueue α) : TimerQueue α := { q with entries := [] }

def size (q : TimerQueue α) : Nat := q.entries.length

end TimerQueue

end Playout
