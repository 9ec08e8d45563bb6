import Playout.Session.Basic

/-!
# Running a session

Handling what is due, what waits in the mailbox, or everything until the session stops. How
many messages that is depends on the devices: an audio output that never takes a byte asks for
another push at once, again and again. So these loops take the clock readings of as many messages as
they may handle, and answer `none` when there are no more before they are done.
-/

namespace Playout.Session

variable {σ : Type}

/-- Take the first timer that is due. -/
def takeDue (now : Int) : Step σ (Option Message) := do
  let (s, _) ← get
  match s.timers.popDue now with
  | none => return none
  | some (m, timers) =>
    update ({ · with timers })
    return some m

/-- Take the first message of the mailbox. -/
def takeMail : Step σ (Option Message) := do
  let (_, w) ← get
  match w.mailbox with
  | [] => return none
  | m :: rest =>
    Action.onSecond (set { w with mailbox := rest })
    return some m

/-- Handle what `take` brings, one after the other, and answer how many messages that were. -/
def handleAll (P : Platform σ) (take : Readings → Step σ (Option Message)) :
    (clock : List Readings) → Step σ (Option Nat)
  | [] => return none
  | now :: clock => do
    match ← take now with
    | none => return some 0
    | some m =>
      handle P now m
      return (← handleAll P take clock).map (· + 1)

/-- Handle the timers that are due. -/
def fireDue (P : Platform σ) (clock : List Readings) : Step σ (Option Nat) :=
  handleAll P (fun now => takeDue now.timers) clock

/-- Handle the mailbox, then the timers that are due. -/
def drainMailbox (P : Platform σ) (mail due : List Readings) : Step σ (Option Nat) := do
  match ← handleAll P (fun _ => takeMail) mail with
  | none => return none
  | some n => return (← fireDue P due).map (n + ·)

/-- Run an action; a fault that is not fatal rejects one message and is passed over. -/
def skipRejected (a : Step σ (Option Nat)) : Step σ (Option Nat) := do
  match ← Action.attempt a with
  | .ok n => return n
  | .error e => if e.isFatal then throw e else return some 0

/-- What the clock reads in one round of a run. -/
structure Round where
  /-- While the timers are handled that are due -/
  due : List Readings
  /-- While one message of the mailbox is handled -/
  mail : Readings

/-- Handle due timers and mail in turn until the session stops. With an empty mailbox it waits for
the next timer; without one it would wait for ever. -/
def loop (P : Platform σ) : (clock : List Round) → Step σ (Option Unit)
  | [] => return none
  | now :: clock => do
    if (← skipRejected (fireDue P now.due)).isNone then return none
    let (s, _) ← get
    if s.stopped then return some ()
    match ← takeMail with
    -- nothing in the mailbox: go on when the next timer is due, if there is one
    | none => if s.nextDue.isSome then loop P clock else return none
    | some m =>
      -- a message that is rejected is passed over, as a timer is
      let _ ← skipRejected do
        handle P now.mail m
        return some 1
      let (s, _) ← get
      if s.stopped then return some ()
      loop P clock

/-- Run until the session stops, tear it down if it is not, and answer its counts. -/
def run (P : Platform σ) (clock : List Round) : Step σ (Option SessionCounts) := do
  let outcome ← Action.attempt (loop P clock)
  -- torn down either way, before the outcome is looked at
  let ending ← Action.attempt (teardown P)
  match outcome with
  | .error e => throw e
  | .ok none => return none
  | .ok (some ()) =>
    Action.ofExcept ending
    let (s, _) ← get
    return some s.counts

end Playout.Session
