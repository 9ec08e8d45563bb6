import Mathlib.Data.Prod.Lex
import Playout.Platform.Simulated
import Playout.Proofs.Session.Due

/-!
# Firing the due timers under a clock that stands still

A handled timer may post others, and those may be due at once. `rank` measures what is left to
do: the due messages by what they can make due, then the audio that waits, then the due pushes.
A round lowers it, with one exception. A push that writes nothing posts the next push after half
of the playout time in flight, rounded down; if that is nothing, `Stalls` holds and the round
leaves the rank as it was.

```
fireDue_returns_iff : Returns P now st ↔ ¬ ∃ n st', rounds P now n st = some st' ∧ StallsForever ..
```

So there is no other way for the timers to fire for ever. This one is open:
`halfFrame_never_returns` gives two bytes of audio to an output with frames of four.
-/

namespace Playout.Session

open Playout.Action

variable {σ : Type} {now : Int}

/-! ## Rounds -/

/-- Handle the first timer that is due; `none` if none is due, or if the message fails. -/
def round (P : Platform σ) (now : Int) (st : Session × World σ) : Option (Session × World σ) :=
  match st.1.timers.popDue now with
  | none => none
  | some (m, timers) =>
    match handle P (.still now) m ({ st.1 with timers }, st.2) with
    | .ok _ st' => some st'
    | .error _ _ => none

/-- The state after `n` rounds. -/
def rounds (P : Platform σ) (now : Int) : Nat → Session × World σ → Option (Session × World σ)
  | 0, st => some st
  | n + 1, st => (round P now st).bind (rounds P now n)

/-- The next due timer is a push that writes nothing and asks for another push at once. -/
def Stalls (P : Platform σ) (now : Int) (st : Session × World σ) : Prop :=
  ∃ timers pacer p,
    st.1.timers.popDue now = some (.pushAudio, timers) ∧ st.1.stopped = false ∧
    st.1.pacer = some pacer ∧ st.1.pipelines.audio = some p ∧
    (Pacer.push P.audioDevice.onSecond (giveBack P .audio .release)).Ends (pacer, p, st.2)
      (fun wait t => wait = some 0 ∧ t.1.queue = pacer.queue) fun _ _ => False

/-- What is due first, then the audio that waits, then the pushes that are due. -/
def rank (due : List Message) (pacer : Option Pacer) : Nat ×ₗ Nat ×ₗ Nat :=
  toLex (load due, toLex (audioBacklog ((pacer.map (·.queue)).getD []), due.count .pushAudio))

/-- Work counts for more than any amount of audio. -/
theorem rank_lt_of_load {due due' : List Message} {pacer pacer' : Option Pacer}
    (h : load due' < load due) : rank due' pacer' < rank due pacer :=
  Prod.Lex.toLex_lt_toLex.mpr (Or.inl h)

/-- With the same work, audio counts for more than any number of pushes. -/
theorem rank_lt_of_audio {due due' : List Message} {pacer pacer' : Pacer}
    (hload : load due' = load due) (h : audioBacklog pacer'.queue < audioBacklog pacer.queue) :
    rank due' (some pacer') < rank due (some pacer) :=
  Prod.Lex.toLex_lt_toLex.mpr (Or.inr ⟨hload, Prod.Lex.toLex_lt_toLex.mpr (Or.inl h)⟩)

/-- A push that is taken away is one push less. -/
theorem rank_lt_push_cons {due : List Message} {pacer pacer' : Option Pacer}
    (h : pacer'.map (·.queue) = pacer.map (·.queue)) :
    rank due pacer' < rank (.pushAudio :: due) pacer := by
  simp only [rank, load_cons, weight, h, Nat.zero_add, List.count_cons_self]
  exact Prod.Lex.toLex_lt_toLex.mpr (Or.inr ⟨rfl, Prod.Lex.toLex_lt_toLex.mpr
    (Or.inr ⟨rfl, Nat.lt_succ_self _⟩)⟩)

/-- The rank does not depend on the order in which messages are due. -/
theorem rank_perm {due due' : List Message} (h : due.Perm due') (pacer : Option Pacer) :
    rank due pacer = rank due' pacer := by
  simp only [rank, load_perm h, h.count_eq]

/-- The rank of what a session has to do at `now`. -/
def rankAt (now : Int) (st : Session × World σ) : Nat ×ₗ Nat ×ₗ Nat :=
  rank (st.1.timers.dueItems now) st.1.pacer

/-- A push that is due lowers the rank, or it stalls. -/
theorem pushAudio_rank (P : Platform σ) {s : Session} {w : World σ}
    {timers : TimerQueue Message} (hpop : s.timers.popDue now = some (.pushAudio, timers))
    (hstopped : s.stopped = false) :
    (pushAudio P (.still now)).Ends ({ s with timers }, w)
      (fun _ t => rankAt now t < rankAt now (s, w) ∨
        Stalls P now (s, w) ∧ rankAt now t = rankAt now (s, w))
      fun _ _ => True := by
  have hrank : rankAt now (s, w) = rank (.pushAudio :: timers.dueItems now) s.pacer :=
    rank_perm (TimerQueue.popDue_perm hpop).symm _
  rw [hrank]
  refine ends_pushAudio (fun _ => Or.inl (rank_lt_push_cons rfl)) fun pacer p hpacer hp => ?_
  replace hpacer : s.pacer = some pacer := hpacer
  -- either the push stalls, or it takes something or waits
  by_cases hstall : (Pacer.push P.audioDevice.onSecond (giveBack P .audio .release)).Ends
      (pacer, p, w) (fun wait t => wait = some 0 ∧ t.1.queue = pacer.queue) fun _ _ => False
  · refine hstall.imp (fun wait r hr => ?_) fun _ _ _ => trivial
    obtain ⟨rfl, hqueue⟩ := hr
    refine Or.inr ⟨⟨timers, pacer, p, hpop, hstopped, hpacer, hp, hstall⟩, ?_⟩
    simp [rankAt, postPush, withAudio, TimerQueue.dueItems_schedule, rank, hqueue, hpacer]
  · have hpush := (Pacer.push_ends P.audioDevice.onSecond (giveBack P .audio .release)
      pacer (p, w)).and (ends_not hstall)
    refine hpush.imp (fun wait r hr => ?_) fun _ _ _ => trivial
    obtain ⟨hshorter, hwait⟩ := hr
    rw [hpacer]
    rcases hshorter with hqueue | hless
    · -- nothing was taken, so another push is asked for later, if at all
      have hfewer : rank (timers.dueItems now) (some r.1) <
          rank (.pushAudio :: timers.dueItems now) (some pacer) :=
        rank_lt_push_cons (by simp [hqueue])
      cases wait with
      | none => exact Or.inl hfewer
      | some delay =>
        have hdelay : 0 < delay := Nat.pos_of_ne_zero fun h => hwait ⟨by rw [h], hqueue⟩
        refine Or.inl ?_
        simp only [rankAt, postPush, withAudio, dueItems_schedule_later _ _ hdelay]
        exact hfewer
    · -- less audio waits, and the push that may be due again weighs nothing
      cases wait with
      | none => exact Or.inl (rank_lt_of_audio (Nat.zero_add _).symm hless)
      | some delay =>
        refine Or.inl (rank_lt_of_audio ?_ hless)
        simp only [postPush, withAudio, TimerQueue.dueItems_schedule]
        split <;> simp [weight]

/-- Handling the first timer that is due lowers the rank, or stalls and leaves it as it was. -/
theorem handle_rank (P : Platform σ) {s : Session} {w : World σ} {m : Message}
    {timers : TimerQueue Message} (hpop : s.timers.popDue now = some (m, timers)) :
    (handle P (.still now) m).Ends ({ s with timers }, w)
      (fun _ t => rankAt now t < rankAt now (s, w) ∨
        Stalls P now (s, w) ∧ rankAt now t = rankAt now (s, w))
      fun _ _ => True := by
  have hrank : rankAt now (s, w) = rank (m :: timers.dueItems now) s.pacer :=
    rank_perm (TimerQueue.popDue_perm hpop).symm _
  rcases Bool.eq_false_or_eq_true s.stopped with hstopped | hstopped
  -- a session that has stopped does nothing, but the message is gone
  · refine (ends_handle_stopped hstopped).mpr (Or.inl ?_)
    rw [hrank]
    by_cases hm : m = .pushAudio
    · subst hm
      exact rank_lt_push_cons rfl
    · exact rank_lt_of_load (by cases m <;> simp_all [weight])
  · refine handle_ends (Q := fun due pacer => rank due pacer < rankAt now (s, w) ∨
      Stalls P now (s, w) ∧ rank due pacer = rankAt now (s, w)) hstopped ?_
    by_cases hm : m = .pushAudio
    · subst hm
      exact pushAudio_rank P hpop hstopped
    · refine (dispatch_load P hm _).imp (fun _ t ht => Or.inl ?_) fun _ _ he => he
      replace ht : load (t.1.timers.dueItems now) < load (timers.dueItems now) + weight m := ht
      rw [hrank]
      exact rank_lt_of_load (by rw [load_cons]; omega)

/-- A round lowers the rank, or it stalls and leaves the rank as it was. -/
theorem round_rank {P : Platform σ} {st st' : Session × World σ} (h : round P now st = some st') :
    rankAt now st' < rankAt now st ∨ Stalls P now st ∧ rankAt now st' = rankAt now st := by
  unfold round at h
  split at h
  · cases h
  · next m timers hpop =>
    split at h
    · next st'' hrun =>
      obtain rfl : st'' = st' := by simpa using h
      exact (ends_of_ok hrun).mp (handle_rank P hpop)
    · cases h

/-! ## Firing the due timers -/

/-- Firing reaches its limit exactly if there are as many rounds. -/
theorem fireDue_ends_iff (P : Platform σ) (limit : Nat) (st : Session × World σ) :
    (fireDue P (.replicate limit (.still now))).Ends st (fun n _ => n.isSome) (fun _ _ => True) ↔
      rounds P now limit st = none := by
  unfold fireDue
  induction limit generalizing st with
  | zero => simp [handleAll, rounds]
  | succ limit ih =>
    obtain ⟨s, w⟩ := st
    simp only [List.replicate_succ, handleAll, ends_bind, ends_takeDue, rounds, round]
    cases hpop : s.timers.popDue now with
    | none => simp
    | some next =>
      obtain ⟨m, timers⟩ := next
      dsimp only
      -- a fault ends the firing and the rounds alike
      cases hrun : handle P (.still now) m ({ s with timers }, w) with
      | ok x st' =>
        rw [ends_of_ok hrun, Option.bind_some, ← ih st']
        simp
      | error e st' => simp [ends_of_error hrun]

/-- Rounds go on from where rounds have led. -/
theorem rounds_add (P : Platform σ) (n k : Nat) (st : Session × World σ) :
    rounds P now (n + k) st = (rounds P now n st).bind (rounds P now k) := by
  induction n generalizing st with
  | zero => simp [rounds]
  | succ n ih =>
    rw [Nat.add_right_comm]
    simp only [rounds, Option.bind_assoc]
    congr
    funext st'
    exact ih st'

/-- Firing the due timers comes to an end: some number of messages is enough. -/
def Returns (P : Platform σ) (now : Int) (st : Session × World σ) : Prop :=
  ∃ limit, (fireDue P (.replicate limit (.still now))).Ends st (fun n _ => n.isSome) fun _ _ => True

/-- Every round from here on is a push that writes nothing and asks for another at once. -/
def StallsForever (P : Platform σ) (now : Int) (st : Session × World σ) : Prop :=
  ∀ n, ∃ st', rounds P now n st = some st' ∧ Stalls P now st'

/-- No round raises the rank. -/
theorem rounds_rank_le {P : Platform σ} {n : Nat} {st st' : Session × World σ}
    (h : rounds P now n st = some st') : rankAt now st' ≤ rankAt now st := by
  induction n generalizing st with
  | zero => simp_all [rounds]
  | succ n ih =>
    obtain ⟨next, hround, hrest⟩ := Option.bind_eq_some_iff.mp h
    refine (ih hrest).trans ?_
    rcases round_rank hround with hlt | ⟨_, heq⟩
    · exact hlt.le
    · exact heq.le

/-- Rounds that never end come to stall, because the rank cannot fall for ever. -/
theorem stalls_of_unending {P : Platform σ} (st : Session × World σ)
    (h : ∀ n, ∃ st', rounds P now n st = some st') :
    ∃ n st', rounds P now n st = some st' ∧ StallsForever P now st' := by
  induction hrank : rankAt now st using WellFoundedLT.induction generalizing st with
  | ind r ih =>
    by_cases hforever : StallsForever P now st
    · exact ⟨0, st, rfl, hforever⟩
    · simp only [StallsForever, not_forall, not_exists, not_and] at hforever
      obtain ⟨n, hstall⟩ := hforever
      -- round `n` does not stall, so the rank is lower after it
      obtain ⟨st₁, hn⟩ := h n
      obtain ⟨st₂, hn'⟩ := h (n + 1)
      have hround : round P now st₁ = some st₂ := by
        rw [rounds_add, hn] at hn'
        simpa [rounds] using hn'
      have hlt : rankAt now st₂ < r := by
        rcases round_rank hround with hlt | ⟨hst₁, _⟩
        · exact hlt.trans_le (hrank ▸ rounds_rank_le hn)
        · exact absurd hst₁ (hstall st₁ hn)
      -- and from there on the rounds do not end either
      have hafter (k : Nat) : ∃ st', rounds P now k st₂ = some st' := by
        obtain ⟨st', hst'⟩ := h (n + 1 + k)
        rw [rounds_add, hn'] at hst'
        exact ⟨st', hst'⟩
      obtain ⟨k, st', hk, hforever⟩ := ih _ hlt st₂ hafter rfl
      exact ⟨n + 1 + k, st', by rw [rounds_add, hn']; exact hk, hforever⟩

/-- If no number of messages is enough there are rounds without end. -/
theorem unending_of_not_returns {P : Platform σ} {st : Session × World σ}
    (h : ¬ Returns P now st) (n : Nat) : ∃ st', rounds P now n st = some st' := by
  have hn : ¬ rounds P now n st = none := fun hnone =>
    h ⟨n, (fireDue_ends_iff P n st).mpr hnone⟩
  exact Option.ne_none_iff_exists'.mp hn

/-- **Firing the due timers fails to come to an end only by stalling.** For every session, every
platform and every clock reading, `fireDue` runs on for ever exactly if it comes to a state from
which every round is a push that writes nothing and posts the next push for the same moment. -/
theorem fireDue_returns_iff (P : Platform σ) (now : Int) (st : Session × World σ) :
    Returns P now st ↔
      ¬ ∃ n st', rounds P now n st = some st' ∧ StallsForever P now st' := by
  constructor
  · rintro ⟨limit, hlimit⟩ ⟨n, st', hn, hforever⟩
    rw [fireDue_ends_iff] at hlimit
    obtain ⟨st'', hk, _⟩ := hforever limit
    -- the rounds end at `limit`, but those after `n` go on for `limit` more
    have : rounds P now (limit + n) st = none := by rw [rounds_add, hlimit]; rfl
    rw [Nat.add_comm, rounds_add, hn] at this
    exact absurd (this.symm.trans hk) (by simp)
  · intro hstall
    by_contra hreturns
    exact hstall (stalls_of_unending st (unending_of_not_returns hreturns))

/-- A session that holds half a frame of audio, and the timer that is to push it. -/
def halfFrame : Session × World Simulation :=
  [.setFormat 1 (.audio "audio/raw" 48000 2), .inputsAvailable 1 [0], .queueUnit 1 ⟨0, [1, 2]⟩,
    .outputReady 1 0 0 [1, 2]].foldl
    (fun st m => (handle (Simulation.platform {}) (.still 0) m).stateAfter st)
    (new 0, { devices := {} })

/-- The audio is where it was, and a push is all that is due. -/
structure HalfFrame (st : Session × World Simulation) : Prop where
  timers : ∃ ticket, st.1.timers.entries = [⟨0, ticket, .pushAudio⟩]
  stopped : st.1.stopped = false
  pacer : st.1.pacer = halfFrame.1.pacer
  pipelines : st.1.pipelines = halfFrame.1.pipelines
  world : st.2 = halfFrame.2

/-- A round of half a frame ends where it began: the push writes nothing and is posted again. -/
theorem HalfFrame.round {st : Session × World Simulation} (h : HalfFrame st) :
    ∃ st', round (Simulation.platform {}) 0 st = some st' ∧ HalfFrame st' := by
  obtain ⟨s, w⟩ := st
  obtain ⟨⟨ticket, htimers⟩, hstopped, hpacer, hpipelines, rfl⟩ := h
  -- the ring takes whole frames, so the push leaves pacer, pipeline and world as they were
  obtain ⟨pacer, p, hp, hv, hbusy, hretry, hpush⟩ : ∃ pacer p,
      halfFrame.1.pacer = some pacer ∧ halfFrame.1.pipelines = ⟨none, some p⟩ ∧
      p.retryNeeded = false ∧ { p with retryNeeded := false } = p ∧
      Pacer.push (Simulation.platform {}).audioDevice.onSecond
          (giveBack (Simulation.platform {}) .audio .release) (pacer, p, halfFrame.2) =
        .ok (some 0) (pacer, p, halfFrame.2) := ⟨_, _, rfl, rfl, rfl, rfl, rfl⟩
  simp only at hstopped htimers hpacer hpipelines
  have hpop : s.timers.popDue 0 = some (.pushAudio, { s.timers with entries := [] }) := by
    simp [TimerQueue.popDue, TimerQueue.first?, htimers, TimerEntry.takeFirst]
  have hhandle : (handle (Simulation.platform {}) (.still 0) .pushAudio).Ends
      ({ s with timers := { s.timers with entries := [] } }, halfFrame.2)
      (fun _ t => HalfFrame t) fun _ _ => False := by
    simp [handle, dispatch, pushAudio, hstopped, hpacer, hpipelines, hp, hv, hbusy,
      ends_of_ok hpush, scheduleRetry, PerTrack.get, PerTrack.set, Pipeline.takeRetry]
    exact ⟨⟨_, rfl⟩, rfl, hp.symm, by simp [hv, hretry], rfl⟩
  unfold Session.round
  rw [hpop]
  unfold Ends at hhandle
  split at hhandle
  · next hrun => exact ⟨_, by simp [hrun], hhandle⟩
  · exact hhandle.elim

/-- Half a frame is never written, and its push never waits. -/
theorem halfFrame_never_returns : ¬ Returns (Simulation.platform {}) 0 halfFrame := by
  rintro ⟨limit, hlimit⟩
  rw [fireDue_ends_iff] at hlimit
  -- a round leads from half a frame to half a frame, so there is always another one
  have hrounds (n : Nat) (st : Session × World Simulation) (h : HalfFrame st) :
      ∃ st', rounds (Simulation.platform {}) 0 n st = some st' := by
    induction n generalizing st with
    | zero => exact ⟨st, rfl⟩
    | succ n ih =>
      obtain ⟨st', hround, h'⟩ := h.round
      simpa [rounds, hround] using ih st' h'
  obtain ⟨st', hst'⟩ := hrounds limit halfFrame ⟨⟨0, rfl⟩, rfl, rfl, rfl, rfl⟩
  rw [hlimit] at hst'
  cases hst'

/-! ## Outputs that get on -/

section Responsive

variable {P : Platform σ} {frameSize : Nat}

/-- What is kept beside the world of a device does not change how it answers. -/
theorem audioDevice_responsive (h : Pacer.Responsive P.audio frameSize) :
    Pacer.Responsive (P.audioDevice.onSecond : AudioDevice (Pipeline × World σ)) frameSize where
  frameSize_eq r := h.frameSize_eq r.2.devices
  frameSize_pos := h.frameSize_pos
  takes bytes r := h.takes bytes r.2.devices
  plays r := h.plays r.2.devices

/-- A stalled push has counted what it wrote: less than a frame is left over. -/
theorem partial_of_stalls (h : Pacer.Responsive P.audio frameSize) {st st' : Session × World σ}
    (hstall : Stalls P now st) (hround : round P now st = some st') :
    ∀ pacer ∈ st'.1.pacer, pacer.partialBytes < frameSize := by
  obtain ⟨s, w⟩ := st
  obtain ⟨timers, pacer, p, hpop, hstopped, hpacer, hp, hpush⟩ := hstall
  -- a push counts what the output has taken, and a responsive output leaves less than a frame over
  have hhandle : (handle P (.still now) .pushAudio).Ends ({ s with timers }, w)
      (fun _ t => ∀ pacer ∈ t.1.pacer, pacer.partialBytes < frameSize) fun _ _ => True := by
    refine handle_ends (Q := fun _ pacer => ∀ p ∈ pacer, p.partialBytes < frameSize) hstopped ?_
    simp only at hpacer hp
    simp only [dispatch, pushAudio, ends_bind, ends_get, hpacer, hp, ends_onAudio]
    have hboth := hpush.and (Pacer.push_partial (audioDevice_responsive h)
      (giveBack P .audio .release) pacer (p, w))
    refine hboth.imp ?_ fun _ _ _ => trivial
    rintro wait r ⟨⟨rfl, -⟩, hpartial⟩
    simp only [ends_schedule, Option.mem_some_iff, forall_eq']
    exact hpartial (by simp)
  simp only [round, hpop] at hround
  split at hround
  · next st'' hrun =>
    obtain rfl : st'' = st' := by simpa using hround
    exact (ends_of_ok hrun).mp hhandle
  · cases hround

/-- To a responsive output every push gets on, and firing the due timers comes to an end. -/
theorem returns_of_responsive (h : Pacer.Responsive P.audio frameSize) (now : Int)
    (st : Session × World σ) : Returns P now st := by
  by_contra hreturns
  -- the first of two stalled rounds leaves less than a frame begun, and then the second waits
  obtain ⟨n, st', -, hforever⟩ := stalls_of_unending st (unending_of_not_returns hreturns)
  obtain ⟨st₁, hst₁, hstall⟩ := hforever 0
  obtain ⟨st₂, hst₂, hstall'⟩ := hforever 1
  obtain rfl : st' = st₁ := by simpa [rounds] using hst₁
  have hpartial := partial_of_stalls h hstall (by simpa [rounds] using hst₂)
  obtain ⟨timers, pacer, p, -, -, hpacer, -, hpush⟩ := hstall'
  have hwaits := Pacer.push_waits (audioDevice_responsive h) (giveBack P .audio .release)
    (a := (p, st₂.2)) (hpartial pacer hpacer)
  have hboth := hpush.and hwaits
  unfold Ends at hboth
  split at hboth
  · exact hboth.2 hboth.1
  · exact hboth.1

end Responsive

end Playout.Session
