import Playout.Decode.Pipeline
import Playout.Proofs.Video.Order

/-!
# Showings

A frame that comes gets a ticket with its number, so that frames with equal times can be told apart.
A `Showing` is the history of a scheduler in terms of tickets: which frames wait, and which have
left, in what order and how. `Passes` says what an event may do to it, without a word on places in a
queue: frames leave one after the other, each of them before all that still wait.

    queue         = frames that wait
    world         = slots of the frames that left, given back in that order
    left + waits  = frames that came, each of them once
    frames, late  = presented frames among those that left

`Follows` is the invariant that carries this through every run (`follows_run`), whatever the world
does with the slots.
-/

namespace Playout

/-- A frame, and how many frames came before it. -/
structure Ticket where
  number : Nat
  frame : DecodedOutput

/-- The time of `t` is earlier than that of `u`, or they are the same and `t` came first. -/
def Ticket.Before (t u : Ticket) : Prop :=
  t.frame.pts < u.frame.pts ∨ t.frame.pts = u.frame.pts ∧ t.number < u.number

/-- A frame that has left the queue. It was presented at a time, or released without. -/
structure Departure where
  ticket : Ticket
  shownAt : Option Int

namespace Departure

/-- How the slot of the frame goes back. -/
def call (d : Departure) : ReturnKind × Nat :=
  (if d.shownAt.isSome then .render else .release, d.ticket.frame.slot)

/-- The frame was presented when its time was over by more than the tolerance. -/
def late (tolerance : Int) (d : Departure) : Bool :=
  d.shownAt.any fun now => d.ticket.frame.pts + tolerance < now

end Departure

/-- Frames leave one after the other, each of them before all that still wait, and `rest` stays. -/
inductive Leave : List Ticket → List Ticket → List Ticket → Prop
  | none (rest : List Ticket) : Leave rest [] rest
  | next {waiting others gone rest : List Ticket} {t : Ticket} (first : waiting.Perm (t :: others))
    (before : ∀ u ∈ others, t.Before u) (more : Leave others gone rest) :
    Leave waiting (t :: gone) rest

/-- The tickets of a scheduler. -/
structure Showing where
  /-- How many frames have come -/
  came : Nat := 0
  waiting : List Ticket := []
  /-- Frames that have left, in that order -/
  left : List Departure := []

namespace Scheduler

open Playout.Action

variable {α : Type}

/-- What a scheduler is asked for. -/
inductive Event where
  | enqueue (frame : DecodedOutput) (now : Int)
  | renderDue (now : Int)
  | releaseAll

/-- The frame that an event brings. -/
def Event.frame? : Event → Option DecodedOutput
  | .enqueue frame _ => some frame
  | _ => none

/-- Do what is asked for; slots go back through `give`. -/
def Event.perform (give : ReturnKind → Nat → Action α Unit) : Event → Step α Unit
  | .enqueue frame now => do
    let _ ← (.onFirst (.use (Scheduler.enqueue · frame now)) : Step α (Option Nat))
  | .renderDue now => do
    let _ ← Scheduler.renderDue (give .render) now
  | .releaseAll => Scheduler.releaseAll (give .release)

/-- The tickets of the frames that a run brings. -/
def tickets (events : List Event) : List Ticket :=
  (events.filterMap Event.frame?).mapIdx Ticket.mk

/-- What an event may do to a showing. -/
inductive Passes : Event → Showing → Showing → Prop
  | enqueue {frame : DecodedOutput} {now : Int} {r : Showing} {waiting : List Ticket}
    (joins : waiting.Perm (⟨r.came, frame⟩ :: r.waiting)) :
    Passes (.enqueue frame now) r { r with came := r.came + 1, waiting }
  | renderDue {now : Int} {r : Showing} {gone rest : List Ticket}
    (leave : Leave r.waiting gone rest) (due : ∀ t ∈ gone, t.frame.pts ≤ now)
    (ahead : ∀ t ∈ rest, now < t.frame.pts) :
    Passes (.renderDue now) r
      { r with waiting := rest, left := r.left ++ gone.map (Departure.mk · (some now)) }
  | releaseAll {r : Showing} {gone : List Ticket} (leave : Leave r.waiting gone []) :
    Passes .releaseAll r { r with waiting := [], left := r.left ++ gone.map (Departure.mk · none) }

/-- The showing of a run. -/
inductive Shown : List Event → Showing → Prop
  | start : Shown [] {}
  | pass {events : List Event} {event : Event} {r r' : Showing} (before : Shown events r)
    (passes : Passes event r r') : Shown (events ++ [event]) r'

/-- The slots go back one after the other. -/
def giveAll (give : ReturnKind → Nat → Action α Unit) (calls : List (ReturnKind × Nat)) (a : α) :
    α :=
  calls.foldl (fun a call => (give call.1 call.2).stateAfter a) a

/-- A slot could not be given back. -/
def Refuses (give : ReturnKind → Nat → Action α Unit) (e : Fault) : Prop :=
  ∃ kind slot a a', give kind slot a = .error e a'

/-! ## Tickets -/

/-- Tickets in order may leave from the front. -/
theorem leave_of_pairwise {row gone rest : List Ticket} (horder : row.Pairwise Ticket.Before)
    (hrow : row = gone ++ rest) : Leave row gone rest := by
  subst hrow
  induction gone with
  | nil => exact .none rest
  | cons t gone ih =>
    obtain ⟨hbefore, hothers⟩ := List.pairwise_cons.mp horder
    exact .next (List.Perm.refl _) hbefore (ih hothers)

theorem Ticket.Before.pts_le {t u : Ticket} (h : t.Before u) : t.frame.pts ≤ u.frame.pts := by
  rcases h with hbefore | ⟨hequal, -⟩
  · exact Int.le_of_lt hbefore
  · exact Int.le_of_eq hequal

theorem perm_of_leave {waiting gone rest : List Ticket} (h : Leave waiting gone rest) :
    waiting.Perm (gone ++ rest) := by
  induction h with
  | none rest => exact List.Perm.refl _
  | next first _ _ ih => exact first.trans (ih.cons _)

theorem tickets_of_frame (events : List Event) (frame : DecodedOutput) (now : Int) :
    tickets (events ++ [.enqueue frame now]) =
      tickets events ++ [⟨(events.filterMap Event.frame?).length, frame⟩] := by
  simp [tickets, Event.frame?, List.mapIdx_concat]

/-- The frames that leave are among those that waited. -/
theorem perm_of_departures {gone rest : List Ticket} {r : Showing} (h : Leave r.waiting gone rest)
    (shownAt : Option Int) :
    ((r.left ++ gone.map (Departure.mk · shownAt)).map (·.ticket) ++ rest).Perm
      (r.left.map (·.ticket) ++ r.waiting) := by
  have hgone : (gone.map (Departure.mk · shownAt)).map (·.ticket) = gone := by
    rw [List.map_map]
    exact List.map_id' gone
  rw [List.map_append, hgone, List.append_assoc]
  exact (perm_of_leave h).symm.append_left _

theorem frames_of_other {event : Event} (h : event.frame? = none) (events : List Event) :
    (events ++ [event]).filterMap Event.frame? = events.filterMap Event.frame? := by
  rw [List.filterMap_append, List.filterMap_cons_none h, List.filterMap_nil, List.append_nil]

/-- Every frame that came waits still or has left once. -/
theorem shown_accounts {events : List Event} {r : Showing} (h : Shown events r) :
    r.came = (events.filterMap Event.frame?).length ∧
      (r.left.map (·.ticket) ++ r.waiting).Perm (tickets events) := by
  induction h with
  | start => exact ⟨rfl, List.Perm.refl _⟩
  | @pass events event r r' _ passes ih =>
    obtain ⟨hcame, hperm⟩ := ih
    cases passes with
    | @enqueue frame now _ waiting joins =>
      refine ⟨by simp [hcame, Event.frame?], ?_⟩
      rw [tickets_of_frame, ← hcame]
      -- the new frame waits, and the others are where they were
      have hjoined : (r.left.map (·.ticket) ++ waiting).Perm
          (⟨r.came, frame⟩ :: (r.left.map (·.ticket) ++ r.waiting)) :=
        (joins.append_left _).trans List.perm_middle
      exact (hjoined.trans (hperm.cons _)).trans (List.perm_append_singleton _ _).symm
    | renderDue leave =>
      rw [tickets, frames_of_other rfl]
      exact ⟨hcame, (perm_of_departures leave _).trans hperm⟩
    | releaseAll leave =>
      rw [tickets, frames_of_other rfl]
      exact ⟨hcame, (perm_of_departures leave _).trans hperm⟩

/-- The place of a new frame is behind those that are before it. -/
theorem exists_placed {row : List Ticket} (horder : row.Pairwise Ticket.Before) (new : Ticket)
    (hnew : ∀ t ∈ row, t.number < new.number) :
    ∃ placed : List Ticket, placed.map (·.frame) = place new.frame (row.map (·.frame)) ∧
      placed.Perm (new :: row) ∧ placed.Pairwise Ticket.Before := by
  induction row with
  | nil => exact ⟨[new], rfl, List.Perm.refl _, List.pairwise_singleton _ _⟩
  | cons t row ih =>
    obtain ⟨hfirst, hrow⟩ := List.pairwise_cons.mp horder
    -- the new one goes behind `t`, whose number is lower, or right before it
    by_cases hbehind : t.frame.pts ≤ new.frame.pts
    · obtain ⟨placed, hframes, hperm, hplaced⟩ :=
        ih hrow fun u hu => hnew u (List.mem_cons_of_mem _ hu)
      refine ⟨t :: placed, ?_, (hperm.cons t).trans (List.Perm.swap _ _ _), ?_⟩
      · simp [place, hbehind, hframes]
      · refine List.pairwise_cons.mpr ⟨fun u hu => ?_, hplaced⟩
        rcases List.mem_cons.mp (hperm.mem_iff.mp hu) with rfl | hu
        · have := hnew t List.mem_cons_self
          exact (Int.lt_or_eq_of_le hbehind).imp_right fun heq => ⟨heq, this⟩
        · exact hfirst u hu
    · refine ⟨new :: t :: row, by simp [place, hbehind], List.Perm.refl _, ?_⟩
      refine List.pairwise_cons.mpr ⟨fun u hu => Or.inl ?_, horder⟩
      have hlt : new.frame.pts < t.frame.pts := Int.not_le.mp hbehind
      rcases List.mem_cons.mp hu with rfl | hu
      · exact hlt
      · exact Int.lt_of_lt_of_le hlt (Ticket.Before.pts_le (hfirst u hu))

/-! ## What a scheduler does to its world -/

section Giving

variable {give : ReturnKind → Nat → Action α Unit} {s : Scheduler} {a : α}

theorem giveAll_append (calls more : List (ReturnKind × Nat)) :
    giveAll give (calls ++ more) a = giveAll give more (giveAll give calls a) :=
  List.foldl_append

/-- A slot is given back, or refused. -/
theorem ends_give (kind : ReturnKind) (slot : Nat) :
    (give kind slot).Ends a (fun _ a' => a' = giveAll give [(kind, slot)] a)
      fun e _ => Refuses give e :=
  ((ends_stateAfter (give kind slot)).and (ends_self (give kind slot) a)).imp
    (fun _ _ h => h.1.symm) fun _ a' h => ⟨kind, slot, a, a', h.2⟩

/-- The slots of frames. -/
def slotsBack (kind : ReturnKind) (gone : List DecodedOutput) : List (ReturnKind × Nat) :=
  gone.map fun f => (kind, f.slot)

/-- The frames in `gone` were presented: they are counted, and their slots went back. -/
structure Presented (give : ReturnKind → Nat → Action α Unit) (now : Int)
    (gone : List DecodedOutput) (s : Scheduler) (a : α) (t : Scheduler × α) : Prop where
  queue : s.queue = gone ++ t.1.queue
  due : ∀ f ∈ gone, f.pts ≤ now
  tolerance : t.1.tolerance = s.tolerance
  frames : t.1.frames = s.frames + gone.length
  framesLate : t.1.framesLate = s.framesLate + gone.countP (·.pts + s.tolerance < now)
  world : t.2 = giveAll give (slotsBack .render gone) a

theorem presented_none (now : Int) : Presented give now [] s a (s, a) where
  queue := rfl
  due := fun _ hf => absurd hf List.not_mem_nil
  tolerance := rfl
  frames := rfl
  framesLate := rfl
  world := rfl

/-- One more frame is presented. -/
theorem Presented.snoc {now : Int} {front : DecodedOutput} {gone others : List DecodedOutput}
    {r : Scheduler} {b : α} (h : Presented give now gone s a (r, b))
    (hqueue : r.queue = front :: others) (hdue : front.pts ≤ now) :
    Presented give now (gone ++ [front]) s a
      ({ r.count front now with queue := others }, giveAll give [(.render, front.slot)] b) where
  queue := by
    have hgone : s.queue = gone ++ r.queue := h.queue
    rw [hgone, hqueue, List.append_assoc, List.singleton_append]
  due f hf := by
    rcases List.mem_append.mp hf with hf | hf
    · exact h.due f hf
    · cases List.mem_singleton.mp hf
      exact hdue
  tolerance := h.tolerance
  frames := by
    have hframes : r.frames = s.frames + gone.length := h.frames
    rw [List.length_append, ← Nat.add_assoc, ← hframes]
    rfl
  framesLate := by
    -- the tolerance is the one from the start, so lateness is judged alike
    have hlate : r.framesLate = s.framesLate + gone.countP (·.pts + s.tolerance < now) :=
      h.framesLate
    have htolerance : r.tolerance = s.tolerance := h.tolerance
    rw [List.countP_append, List.countP_singleton, ← Nat.add_assoc, ← hlate, ← htolerance]
    simp [count]
  world := by
    have hworld : b = giveAll give (slotsBack .render gone) a := h.world
    rw [slotsBack, List.map_append, giveAll_append, hworld]
    rfl

/-- If the first of a queue is not due, none of it is. -/
theorem ahead_of_first {queue : List DecodedOutput} (hsorted : Sorted queue) {now : Int}
    (h : ∀ front ∈ queue.head?, now < front.pts) : ∀ f ∈ queue, now < f.pts := by
  cases queue with
  | nil => exact fun _ hf => absurd hf List.not_mem_nil
  | cons front others =>
    have hfront : now < front.pts := h front rfl
    intro f hf
    rcases List.mem_cons.mp hf with rfl | hf
    · exact hfront
    · exact Int.lt_of_lt_of_le hfront ((List.pairwise_cons.mp hsorted).1 f hf)

/-- Presenting does what `Presented` says, and arms the wake-up. -/
theorem renderDue_presented (hsorted : Sorted s.queue) (now : Int) :
    (renderDue (give .render) now).Ends (s, a)
      (fun _ t => t.1.Armed ∧ (∀ f ∈ t.1.queue, now < f.pts) ∧
        ∃ gone, Presented give now gone s a t)
      fun e _ => Refuses give e := by
  have hpresented : (renderDue (give .render) now).Ends (s, a)
      (fun _ t => ∃ gone, Presented give now gone s a t) fun e _ => Refuses give e := by
    refine renderDue_each ?_ ?_ ⟨[], presented_none now⟩
    · rintro r b front others hqueue hdue ⟨gone, hgone⟩
      refine (ends_give _ _).imp (fun _ b' hb => ?_) fun _ _ he => he
      subst hb
      exact ⟨gone ++ [front], hgone.snoc hqueue hdue⟩
    -- arming a wake-up changes nothing that `Presented` says
    · rintro r b armedFor ⟨gone, hgone⟩
      exact ⟨gone, { hgone with }⟩
  have harms := renderDue_arms (give .render) now s a
  have hahead := renderDue_ahead (give .render) now s a
  refine ((harms.and hahead).and hpresented).imp ?_ fun _ _ he => he.2
  rintro _ t ⟨⟨⟨harmed, -⟩, hfront⟩, gone, hgone⟩
  have hrest : Sorted t.1.queue := (List.pairwise_append.mp (hgone.queue ▸ hsorted)).2.1
  exact ⟨harmed, ahead_of_first hrest hfront, gone, hgone⟩

/-- Presenting takes exactly the frames whose times have come. -/
theorem renderDue_takes (hsorted : Sorted s.queue) (now : Int) :
    (renderDue (give .render) now).Ends (s, a)
      (fun _ t => t.1.queue = s.queue.filter (now < ·.pts) ∧
        t.2 = giveAll give (slotsBack .render (s.queue.filter (·.pts ≤ now))) a)
      fun e _ => Refuses give e := by
  refine (renderDue_presented hsorted now).imp ?_ fun _ _ he => he
  rintro _ t ⟨-, hahead, gone, hgone⟩
  -- the queue splits into frames that are due and frames that are not
  have hstays : s.queue.filter (now < ·.pts) = t.1.queue := by
    rw [hgone.queue, List.filter_append, List.filter_eq_nil_iff.mpr, List.filter_eq_self.mpr,
      List.nil_append]
    · simpa using hahead
    · simpa using hgone.due
  have hgoes : s.queue.filter (·.pts ≤ now) = gone := by
    rw [hgone.queue, List.filter_append, List.filter_eq_self.mpr, List.filter_eq_nil_iff.mpr,
      List.append_nil]
    · simpa using hahead
    · simpa using hgone.due
  rw [hstays, hgoes]
  exact ⟨rfl, hgone.world⟩

/-- All that waits goes back. -/
theorem releaseAll_empties :
    (releaseAll (give .release)).Ends (s, a)
      (fun _ t => t = ({ s with queue := [], armedFor := none },
        giveAll give (slotsBack .release s.queue) a))
      fun e _ => Refuses give e := by
  simp only [releaseAll, ends_bind, ends_update, ends_get]
  -- what is still to be given back leads to where all of it does
  refine (releaseQueue_each (s := { s with armedFor := none })
    (J := fun t => t.1 = { s with queue := t.1.queue, armedFor := none } ∧
      giveAll give (slotsBack .release t.1.queue) t.2 =
        giveAll give (slotsBack .release s.queue) a)
    (E := fun e _ => Refuses give e) ?_ _ (Nat.le_refl _) ⟨rfl, rfl⟩).imp ?_ fun _ _ he => he
  · rintro r b front others hqueue ⟨hr, hb⟩
    refine (ends_give _ _).imp (fun _ b' hb' => ?_) fun _ _ he => he
    subst hb'
    have hback : giveAll give (slotsBack .release r.queue) b =
        giveAll give (slotsBack .release s.queue) a := hb
    rw [hqueue] at hback
    exact ⟨congrArg (fun r : Scheduler => { r with queue := others }) hr, hback⟩
  · rintro _ t ⟨hempty, hr, hb⟩
    rw [hempty] at hr hb
    exact Prod.ext hr hb

end Giving

/-! ## When a frame asks for a wake-up -/

/-- A frame asks for a wake-up if there is none, or none that early. -/
theorem enqueue_answers {s : Scheduler} (h : s.Armed) (o : DecodedOutput) (now : Int) :
    (s.enqueue o now).1.isSome ↔
      s.armedFor = none ∨ ∃ deadline ∈ s.armedFor, o.pts < deadline := by
  unfold Armed at h
  unfold enqueue
  cases hqueue : s.queue with
  | nil =>
    rw [hqueue] at h
    simp [h, wakesInTime, place, schedule]
  | cons front others =>
    rw [hqueue] at h
    have harmed : s.armedFor = some front.pts := h
    -- only a frame that comes to the front asks for an earlier wake-up
    by_cases hbehind : front.pts ≤ o.pts
    · simp [harmed, place, hbehind, wakesInTime]
    · simp [harmed, place, hbehind, wakesInTime, schedule, Int.not_le.mp hbehind]

/-! ## A showing that goes with a scheduler -/

section Following

variable {give : ReturnKind → Nat → Action α Unit} {tolerance : Int} {a : α} {r : Showing}
  {t : Scheduler × α}

/-- The scheduler and its world are where a showing says. -/
structure Follows (give : ReturnKind → Nat → Action α Unit) (tolerance : Int) (a : α)
    (r : Showing) (t : Scheduler × α) : Prop where
  queue : t.1.queue = r.waiting.map (·.frame)
  order : r.waiting.Pairwise Ticket.Before
  numbers : ∀ u ∈ r.waiting, u.number < r.came
  armed : t.1.Armed
  constant : t.1.tolerance = tolerance
  frames : t.1.frames = r.left.countP (·.shownAt.isSome)
  framesLate : t.1.framesLate = r.left.countP (·.late tolerance)
  world : t.2 = giveAll give (r.left.map (·.call)) a

theorem follows_start : Follows give tolerance a {} ({ tolerance }, a) where
  queue := rfl
  order := .nil
  numbers := fun _ hu => absurd hu List.not_mem_nil
  armed := rfl
  constant := rfl
  frames := rfl
  framesLate := rfl
  world := rfl

/-- A new frame gets the next number, and its place. -/
theorem follows_enqueue (h : Follows give tolerance a r t) (frame : DecodedOutput) (now : Int) :
    ∃ r', Passes (.enqueue frame now) r r' ∧
      Follows give tolerance a r' ((t.1.enqueue frame now).2, t.2) := by
  obtain ⟨placed, hframes, hperm, horder⟩ := exists_placed h.order ⟨r.came, frame⟩ h.numbers
  have hqueue := enqueue_eq t.1 frame now
  refine ⟨_, .enqueue hperm, ?_, horder, ?_, (enqueue_arms h.armed frame now).1, ?_, ?_, ?_,
    h.world⟩
  · rw [hqueue, hframes, h.queue]
  -- the new ticket has the highest number
  · intro u hu
    rcases List.mem_cons.mp (hperm.mem_iff.mp hu) with rfl | hu
    · exact Nat.lt_succ_self _
    · exact Nat.lt_succ_of_lt (h.numbers u hu)
  · rw [hqueue]
    exact h.constant
  · rw [hqueue]
    exact h.frames
  · rw [hqueue]
    exact h.framesLate

/-- A queue that is cut in two cuts the row of tickets. -/
theorem Follows.cut (h : Follows give tolerance a r t) {gone rest : List DecodedOutput}
    (hqueue : t.1.queue = gone ++ rest) :
    ∃ goneRow restRow : List Ticket, r.waiting = goneRow ++ restRow ∧
      goneRow.map (·.frame) = gone ∧ restRow.map (·.frame) = rest :=
  List.map_eq_append_iff.mp (h.queue.symm.trans hqueue)

/-- The calls of departures. -/
theorem calls_of_departures (gone : List Ticket) (shownAt : Option Int) :
    (gone.map (Departure.mk · shownAt)).map (·.call) =
      slotsBack (if shownAt.isSome then .render else .release) (gone.map (·.frame)) := by
  simp [slotsBack, Departure.call, Function.comp_def]

/-- The first of the row leave, and what is due to them is counted. -/
theorem Follows.depart (h : Follows give tolerance a r t) {gone rest : List Ticket}
    (hrow : r.waiting = gone ++ rest) (shownAt : Option Int) {t' : Scheduler × α}
    (hqueue : t'.1.queue = rest.map (·.frame)) (harmed : t'.1.Armed)
    (htolerance : t'.1.tolerance = t.1.tolerance)
    (hframes : t'.1.frames =
      t.1.frames + (gone.map (Departure.mk · shownAt)).countP (·.shownAt.isSome))
    (hlate : t'.1.framesLate =
      t.1.framesLate + (gone.map (Departure.mk · shownAt)).countP (·.late tolerance))
    (hworld : t'.2 = giveAll give ((gone.map (Departure.mk · shownAt)).map (·.call)) t.2) :
    Follows give tolerance a
      { r with waiting := rest, left := r.left ++ gone.map (Departure.mk · shownAt) } t' where
  queue := hqueue
  order := (List.pairwise_append.mp (hrow ▸ h.order)).2.1
  numbers := fun u hu => h.numbers u (hrow ▸ List.mem_append_right gone hu)
  armed := harmed
  constant := htolerance.trans h.constant
  frames := by rw [hframes, h.frames, List.countP_append]
  framesLate := by rw [hlate, h.framesLate, List.countP_append]
  world := by rw [hworld, h.world, List.map_append, giveAll_append]

/-- Tickets in order have their frames in the order of their times. -/
theorem Follows.sorted (h : Follows give tolerance a r t) : Sorted t.1.queue := by
  rw [h.queue]
  exact List.pairwise_map.mpr (h.order.imp Ticket.Before.pts_le)

/-- Frames that are due leave, and are counted. -/
theorem follows_renderDue (h : Follows give tolerance a r t) (now : Int) :
    (Scheduler.renderDue (give .render) now).Ends t
      (fun _ t' => ∃ r', Passes (.renderDue now) r r' ∧ Follows give tolerance a r' t')
      fun e _ => Refuses give e := by
  refine (renderDue_presented h.sorted now).imp ?_ fun _ _ he => he
  rintro _ t' ⟨harmed, hahead, gone, hgone⟩
  -- the frames that went are those of the first tickets
  obtain ⟨goneRow, restRow, hrow, rfl, hrest⟩ := h.cut hgone.queue
  rw [← hrest] at hahead
  refine ⟨_, .renderDue (leave_of_pairwise h.order hrow) (by simpa using hgone.due)
    (by simpa using hahead), ?_⟩
  apply h.depart hrow (some now) hrest.symm harmed hgone.tolerance
  · simpa [List.countP_map, Function.comp_def] using hgone.frames
  · have hlate := hgone.framesLate
    rw [h.constant] at hlate
    simpa [List.countP_map, Function.comp_def, Departure.late] using hlate
  · rw [calls_of_departures]
    exact hgone.world

/-- All frames leave, and none is counted. -/
theorem follows_releaseAll (h : Follows give tolerance a r t) :
    (Scheduler.releaseAll (give .release)).Ends t
      (fun _ t' => ∃ r', Passes .releaseAll r r' ∧ Follows give tolerance a r' t')
      fun e _ => Refuses give e := by
  obtain ⟨s, b⟩ := t
  refine releaseAll_empties.imp ?_ fun _ _ he => he
  rintro _ _ rfl
  -- the row splits behind its last frame: all leave and none waits
  have hrow : r.waiting = r.waiting ++ [] := (List.append_nil _).symm
  refine ⟨_, .releaseAll (leave_of_pairwise h.order hrow), ?_⟩
  refine h.depart hrow none rfl ?_ rfl ?_ ?_ ?_
  · rfl
  · simp [List.countP_map, Function.comp_def]
  · simp [List.countP_map, Function.comp_def, Departure.late]
  · rw [calls_of_departures, ← h.queue]
    rfl

/-- So every event passes in the showing. -/
theorem follows_perform (h : Follows give tolerance a r t) (event : Event) :
    (event.perform give).Ends t
      (fun _ t' => ∃ r', Passes event r r' ∧ Follows give tolerance a r' t')
      fun e _ => Refuses give e := by
  cases event with
  | enqueue frame now => exact follows_enqueue h frame now
  | renderDue now =>
    simp only [Event.perform, ends_bind, ends_pure]
    exact follows_renderDue h now
  | releaseAll => exact follows_releaseAll h

/-- A run has a showing, unless a slot could not be given back. -/
theorem follows_run (events : List Event) :
    (events.forM (Event.perform give)).Ends ({ tolerance }, a)
      (fun _ t => ∃ r, Shown events r ∧ Follows give tolerance a r t)
      fun e _ => Refuses give e := by
  -- what is kept: the events so far have a showing, and the scheduler follows it
  apply (ends_forM (I := fun rest t => ∃ done r, events = done ++ rest ∧ Shown done r ∧
    Follows give tolerance a r t) (E := fun e _ => Refuses give e) ?_ events
    ⟨[], {}, rfl, .start, follows_start⟩).imp
  · rintro _ t ⟨done, r, rfl, hshown, hfollows⟩
    rw [List.append_nil]
    exact ⟨r, hshown, hfollows⟩
  · exact fun _ _ he => he
  · rintro event rest t ⟨done, r, rfl, hshown, hfollows⟩
    refine (follows_perform hfollows event).imp ?_ fun _ _ he => he
    rintro _ t' ⟨r', hpasses, hfollows'⟩
    exact ⟨done ++ [event], r', by simp, .pass hshown hpasses, hfollows'⟩

/-- After every run the frames that came wait still or have left once, in the order of their times
and, among equal times, of their arrival. Presenting takes exactly the frames whose times have come.
The counters say how many frames were presented, and how many of those late. A new frame asks for a
wake-up if there is none, or none that early. A run fails only if the world refuses to take a slot
back. -/
theorem frames_leave_in_order (give : ReturnKind → Nat → Action α Unit) (tolerance : Int) (a : α)
    (events : List Event) :
    (events.forM (Event.perform give)).Ends ({ tolerance }, a)
      (fun _ t => ∃ r, Shown events r ∧ t.1.queue = r.waiting.map (·.frame) ∧
        t.2 = giveAll give (r.left.map (·.call)) a ∧
        (r.left.map (·.ticket) ++ r.waiting).Perm (tickets events) ∧
        t.1.frames = r.left.countP (·.shownAt.isSome) ∧
        t.1.framesLate = r.left.countP (·.late tolerance) ∧
        (∀ now, (Scheduler.renderDue (give .render) now).Ends t
          (fun _ t' => t'.1.queue = t.1.queue.filter (now < ·.pts) ∧
            t'.2 = giveAll give (slotsBack .render (t.1.queue.filter (·.pts ≤ now))) t.2)
          fun e _ => Refuses give e) ∧
        ∀ frame now,
          ((t.1.enqueue frame now).1.isSome ↔
            t.1.armedFor = none ∨ ∃ deadline ∈ t.1.armedFor, frame.pts < deadline) ∧
          (t.1.enqueue frame now).2.armedFor =
            (t.1.enqueue frame now).2.queue.head?.map (·.pts))
      fun e _ => Refuses give e := by
  refine (follows_run events).imp ?_ fun _ _ he => he
  rintro _ t ⟨r, hshown, h⟩
  refine ⟨r, hshown, h.queue, h.world, (shown_accounts hshown).2, h.frames, h.framesLate, ?_, ?_⟩
  · exact fun now => renderDue_takes h.sorted now
  · exact fun frame now => ⟨enqueue_answers h.armed frame now, (enqueue_arms h.armed frame now).1⟩

end Following

end Scheduler

end Playout
