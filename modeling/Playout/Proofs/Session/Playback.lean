import Playout.Proofs.Session.Frames

/-!
# Playing the video

Here a run goes beat by beat: one message is handled, that is sent, or that a timer brings, or from
the mailbox, or else the devices move on. `presented` are the frames that a run takes from the queue
of the scheduler, and `Playing` says where they are: those were offered to the decoder, in that
order, and the decoder has accepted them, or they are deferred.

Whether they are accepted in that order too is up to the decoder: `finishReturn` offers a frame
also while another one waits for its retry, so the frame may be accepted before the other
(`deferred_frame_overtaken`).
-/

namespace Playout.Session

open Playout.Action

variable {σ : Type}

/-! ## Beats -/

/-- What a beat of a run begins with. -/
inductive Source (σ : Type) where
  | sent (m : Message)
  | timers
  | mailbox
  /-- The devices move on by themselves, and may post messages. -/
  | devices (change : σ → σ) (posted : List Message)

/-- One beat of a run, and what the clock reads meanwhile. -/
structure Beat (σ : Type) where
  now : Readings
  source : Source σ

namespace Beat

/-- The message of a beat, if there is one, and what is left when it has been taken. -/
def take (b : Beat σ) (st : Session × World (Recorded σ)) :
    Option Message × Session × World (Recorded σ) :=
  match b.source with
  | .sent m => (some m, st)
  | .timers =>
    match st.1.timers.popDue b.now.timers with
    | none => (none, st)
    | some (m, timers) => (some m, { st.1 with timers }, st.2)
  | .mailbox =>
    match st.2.mailbox with
    | [] => (none, st)
    | m :: rest => (some m, st.1, { st.2 with mailbox := rest })
  | .devices change posted =>
    (none, st.1, {
      devices := { st.2.devices with devices := change st.2.devices.devices }
      mailbox := st.2.mailbox ++ posted })

/-- The session and its world after a beat. -/
def perform (P : Platform σ) (b : Beat σ) (st : Session × World (Recorded σ)) :
    Session × World (Recorded σ) :=
  match b.take st with
  | (none, t) => t
  | (some m, t) => (handle P.recorded b.now m).stateAfter t

/-- Frames that a beat takes from the front of the queue. -/
def presented (P : Platform σ) (b : Beat σ) (st : Session × World (Recorded σ)) :
    List DecodedOutput :=
  let queue := st.1.scheduler.queue
  queue.take (queue.length - (b.perform P st).1.scheduler.queue.length)

end Beat

/-- A new session and its world. -/
def opening (tolerance : Int) (devices : σ) : Session × World (Recorded σ) :=
  (new tolerance, { devices := { devices } })

/-- The session and its world after some beats. -/
def play (P : Platform σ) (beats : List (Beat σ)) (st : Session × World (Recorded σ)) :
    Session × World (Recorded σ) :=
  beats.foldl (fun st b => b.perform P st) st

/-- Frames that some beats take from the queue, in the order in which they take them. -/
def presented (P : Platform σ) :
    List (Beat σ) → Session × World (Recorded σ) → List DecodedOutput
  | [], _ => []
  | b :: beats, st => b.presented P st ++ presented P beats (b.perform P st)

/-- The time of the frame that a message reports. -/
def reported? : Option Message → Option Int
  | some (.outputReady 0 _ pts _) => some pts
  | _ => none

/-- No clock goes back, and every frame is reported before its time. -/
def OnTime (P : Platform σ) :
    (clock : Int) → List (Beat σ) → Session × World (Recorded σ) → Prop
  | _, [], _ => True
  | clock, b :: beats, st =>
    clock ≤ b.now.frames ∧ (∀ pts ∈ reported? (b.take st).1, b.now.frames ≤ pts) ∧
      OnTime P b.now.frames beats (b.perform P st)

instance OnTime.decidable (P : Platform σ) :
    (clock : Int) → (beats : List (Beat σ)) → (st : Session × World (Recorded σ)) →
      Decidable (OnTime P clock beats st)
  | _, [], _ => isTrue trivial
  | clock, b :: beats, st =>
    have := OnTime.decidable P b.now.frames beats (b.perform P st)
    inferInstanceAs (Decidable (clock ≤ b.now.frames ∧
      (∀ pts ∈ reported? (b.take st).1, b.now.frames ≤ pts) ∧
        OnTime P b.now.frames beats (b.perform P st)))

/-! ## One beat -/

section Turns

variable {now : Int} {next : Option Message} {queue first queue' shown : List DecodedOutput}

/-- What is presented is what the queue is shorter by. -/
theorem Turn.taken (h : Turn now next queue first queue') :
    queue.take (queue.length - queue'.length) = first := by
  cases h with
  | same => simp
  | placed slot pts payload =>
    have hlength := (Scheduler.place_slots ⟨slot, pts, payload⟩ queue).length_eq
    simp only [List.length_map, List.length_cons] at hlength
    rw [hlength]
    simp
  | presented generation rest due => simp

/-- A frame that is reported before its time goes behind all that has been presented, since that was
due; and what is presented comes from the front. -/
theorem Turn.ordered (h : Turn now next queue first queue')
    (hnext : ∀ pts ∈ reported? next, now ≤ pts) (hshown : Scheduler.Ordered now shown queue) :
    Scheduler.Ordered now (shown ++ first) queue' := by
  cases h with
  | same =>
    rw [List.append_nil]
    exact hshown
  | placed slot pts payload =>
    rw [List.append_nil]
    exact hshown.place (hnext pts rfl)
  | presented generation rest due => exact hshown.present due

end Turns

/-- Taking a message leaves the frames alone. -/
theorem Beat.take_same (b : Beat σ) (st : Session × World (Recorded σ)) :
    SameFrames st (b.take st).2 ∧ (b.take st).2.1.stopped = st.1.stopped ∧
      (st.1.Matched → (b.take st).2.1.Matched) := by
  unfold take
  split
  · exact ⟨⟨rfl, rfl, rfl⟩, rfl, id⟩
  · split
    · exact ⟨⟨rfl, rfl, rfl⟩, rfl, id⟩
    · next m timers hpop =>
      refine ⟨⟨rfl, rfl, rfl⟩, rfl, ?_⟩
      intro hmatched
      refine hmatched.reframe rfl rfl rfl ?_
      -- taking a timer leaves the other timers, which is all that the session knows of it
      intro m' hm'
      exact Or.inl ((TimerQueue.popDue_items hpop).subset (List.mem_cons_of_mem _ hm'))
  · split
    · exact ⟨⟨rfl, rfl, rfl⟩, rfl, id⟩
    · exact ⟨⟨rfl, rfl, rfl⟩, rfl, id⟩
  · exact ⟨⟨rfl, rfl, rfl⟩, rfl, id⟩

/-- After the frames `shown` have been presented, the decoder has been offered these, in their
order, and the pipeline has deferred those that it has not accepted. -/
structure Playing (shown : List DecodedOutput) (st : Session × World (Recorded σ)) : Prop where
  matched : st.1.Matched
  linked : Linked st
  offered : (frames st.2).offered = shown.map (·.slot)

section Runs

variable {P : Platform σ} {shown : List DecodedOutput} {st : Session × World (Recorded σ)}

/-- A beat that finds a message handles it; one that finds none is over when it has looked. -/
theorem Beat.perform_ends (b : Beat σ) {Q : Session × World (Recorded σ) → Prop}
    (idle : (b.take st).1 = none → Q (b.take st).2)
    (handled : ∀ m, (b.take st).1 = some m →
      (handle P.recorded b.now m).Ends (b.take st).2 (fun _ => Q) fun _ => Q) :
    Q (b.perform P st) := by
  unfold perform
  split
  · next t htake =>
    rw [htake] at idle
    exact idle rfl
  · next m t htake =>
    rw [htake] at handled
    exact (handled m rfl).stateAfter

/-- A beat stops the session, or it goes on playing. -/
theorem Playing.beat (h : Playing shown st) (hrunning : st.1.stopped = false) (P : Platform σ)
    (b : Beat σ) :
    (b.perform P st).1.stopped = true ∨
      Playing (shown ++ b.presented P st) (b.perform P st) ∧
        Turn b.now.frames (b.take st).1 st.1.scheduler.queue (b.presented P st)
          (b.perform P st).1.scheduler.queue := by
  obtain ⟨hsame, hstopped, hmatched⟩ := b.take_same st
  have hperform : (b.perform P st).1.stopped = true ∨
      (b.perform P st).1.Matched ∧ Turned b.now.frames (b.take st).1 st (b.perform P st) := by
    have hmatched' : (b.take st).2.1.Matched := hmatched h.matched
    apply b.perform_ends (Q := fun t =>
      t.1.stopped = true ∨ t.1.Matched ∧ Turned b.now.frames (b.take st).1 st t)
    · intro htake
      rw [htake]
      exact Or.inr ⟨hmatched', hsame.turned h.linked⟩
    -- a message is handled: it leaves the session in order and takes one turn, or stops the session
    · intro m htake
      rw [htake]
      have hafter (t' : Session × World (Recorded σ)) (htidy : Tidy t')
          (hturned : StoppedOrTurned b.now.frames m (b.take st).2 t') :
          t'.1.stopped = true ∨ t'.1.Matched ∧ Turned b.now.frames (some m) st t' := by
        rcases htidy with hstopped' | htidy
        · exact Or.inl hstopped'
        · exact hturned.imp id fun hturned => ⟨htidy, hturned.from hsame⟩
      have htidy : (handle P.recorded b.now m).Ends (b.take st).2 (fun _ t' => Tidy t')
          fun e t' => Blamed P.recorded (b.take st).2.1 m e ∧ Tidy t' :=
        handle_tidy (Or.inr hmatched') m
      have hturned : (handle P.recorded b.now m).Ends (b.take st).2
          (fun _ t' => StoppedOrTurned b.now.frames m (b.take st).2 t')
          fun _ t' => StoppedOrTurned b.now.frames m (b.take st).2 t' :=
        handle_turned (hstopped.trans hrunning) hmatched' (hsame.linked h.linked) m
      exact (htidy.and hturned).imp (fun _ t' ht' => hafter t' ht'.1 ht'.2)
        fun _ t' ht' => hafter t' ht'.1.2 ht'.2
  refine hperform.imp id ?_
  rintro ⟨hmatched', hlinked, first, hturn, hoffered⟩
  have hfirst : b.presented P st = first := hturn.taken
  rw [hfirst]
  refine ⟨⟨hmatched', hlinked, ?_⟩, hturn⟩
  rw [hoffered, h.offered, List.map_append]

/-- A session that has stopped does not start again. -/
theorem Beat.perform_stopped (b : Beat σ) (hstopped : st.1.stopped = true) :
    (b.perform P st).1.stopped = true := by
  -- taking a message does not start a session
  have htaken : (b.take st).2.1.stopped = true := (b.take_same st).2.1.trans hstopped
  apply b.perform_ends (Q := fun t => t.1.stopped = true)
  · intro _
    exact htaken
  · intro m _
    exact (ends_handle_stopped htaken).mpr htaken

/-- A session that has stopped does not start again, whatever beats follow. -/
theorem play_stopped (beats : List (Beat σ)) (hstopped : st.1.stopped = true) :
    (play P beats st).1.stopped = true := by
  induction beats generalizing st with
  | nil => exact hstopped
  | cons b beats ih => exact ih (b.perform_stopped hstopped)

/-- A run stops the session, or it goes on playing. Frames that came before their times are
presented in the order of their times. -/
theorem Playing.play (h : Playing shown st) (P : Platform σ) (beats : List (Beat σ)) (clock : Int) :
    (play P beats st).1.stopped = true ∨
      Playing (shown ++ presented P beats st) (play P beats st) ∧
        (OnTime P clock beats st → Scheduler.Ordered clock shown st.1.scheduler.queue →
          Scheduler.Sorted (shown ++ presented P beats st)) := by
  -- by induction on the beats; `shown` grows by what each of them presents
  induction beats generalizing shown clock st with
  | nil =>
    refine Or.inr ⟨?_, ?_⟩
    · rw [presented, List.append_nil]
      exact h
    · intro _ hordered
      rw [presented, List.append_nil]
      exact (List.pairwise_append.mp hordered.sorted).1
  | cons b beats ih =>
    show (Session.play P beats (b.perform P st)).1.stopped = true ∨ _
    cases hrunning : st.1.stopped with
    | true => exact Or.inl (play_stopped (b :: beats) hrunning)
    | false =>
      rcases h.beat hrunning P b with hstopped | ⟨hplaying, hturn⟩
      · exact Or.inl (play_stopped beats hstopped)
      · rw [presented, ← List.append_assoc]
        refine (ih hplaying b.now.frames).imp id ?_
        rintro ⟨hplayed, hsorted⟩
        refine ⟨hplayed, ?_⟩
        -- what a beat presents is due by its reading, and what comes later is reported before its
        -- time
        rintro ⟨hclock, hnext, hontime⟩ hordered
        exact hsorted hontime (hturn.ordered hnext (hordered.later hclock))

end Runs

/-! ## Every run goes beat by beat -/

/-- The session has stopped, or some beats have led here. -/
def Played (P : Platform σ) (start st : Session × World (Recorded σ)) : Prop :=
  st.1.stopped = true ∨ ∃ beats, play P beats start = st

section Events

variable {P : Platform σ} {start st : Session × World (Recorded σ)}

/-- One beat more. -/
theorem Played.beat (h : Played P start st) (b : Beat σ) : Played P start (b.perform P st) := by
  rcases h with hstopped | ⟨beats, rfl⟩
  · exact Or.inl (b.perform_stopped hstopped)
  · refine Or.inr ⟨beats ++ [b], ?_⟩
    unfold play
    rw [List.foldl_append]
    rfl

/-- A message that a beat begins with is handled by that beat. -/
theorem Played.handle {b : Beat σ} {m : Message} {t : Session × World (Recorded σ)}
    (h : Played P start st) (htake : b.take st = (some m, t)) :
    (handle P.recorded b.now m).Ends t (fun _ t' => Played P start t')
      fun _ t' => Played P start t' := by
  have hbeat := h.beat b
  unfold Beat.perform at hbeat
  rw [htake] at hbeat
  apply (ends_stateAfter (Session.handle P.recorded b.now m)).imp
  · rintro _ t' rfl
    exact hbeat
  · rintro _ t' rfl
    exact hbeat

/-- What is taken as a beat takes it is handled as by that beat. -/
theorem handleAll_played {take : Readings → Step (Recorded σ) (Option Message)} (source : Source σ)
    (htake : ∀ now st, (take now).Ends st (fun next t => Beat.take ⟨now, source⟩ st = (next, t))
      fun _ _ => False) (clock : List Readings) :
    (handleAll P.recorded take clock).Keeps (Played P start) := by
  -- a beat for each reading, the last one being the look that finds nothing
  induction clock with
  | nil =>
    intro st h
    exact h
  | cons now clock ih =>
    intro st h
    simp only [handleAll, ends_bind]
    refine (htake now st).imp ?_ fun _ _ he => he.elim
    intro next t hnext
    cases next with
    | none =>
      have hbeat := h.beat ⟨now, source⟩
      unfold Beat.perform at hbeat
      rw [hnext] at hbeat
      exact hbeat
    | some m =>
      simp only [ends_bind, ends_pure]
      refine (h.handle (b := ⟨now, source⟩) hnext).imp (fun _ t' ht' => ?_) fun _ _ ht' => ht'
      exact ih t' ht'

/-- Firing the timers is a row of beats that begin with the timers. -/
theorem fireDue_played (clock : List Readings) :
    (fireDue P.recorded clock).Keeps (Played P start) := by
  apply handleAll_played .timers
  intro now st
  rw [ends_takeDue]
  unfold Beat.take
  cases st.1.timers.popDue now.timers <;> rfl

/-- Draining the mailbox is a row of beats that begin with the mailbox, and then one of the
timers. -/
theorem drainMailbox_played (mail due : List Readings) :
    (drainMailbox P.recorded mail due).Keeps (Played P start) := by
  intro st h
  have hmail : (handleAll P.recorded (fun _ => takeMail) mail).Keeps (Played P start) := by
    apply handleAll_played .mailbox
    intro now st
    rw [ends_takeMail]
    unfold Beat.take
    cases st.2.mailbox <;> rfl
  exact drainMailbox_ends (hmail st h) fun t ht => fireDue_played due t ht

end Events

/-- Whatever events a session goes through, it is stopped, or some beats lead to where it is. -/
theorem afterEvents_played (P : Platform σ) (tolerance : Int) (devices : σ)
    (events : List (Event σ)) :
    Played P (opening tolerance devices) (afterEvents P tolerance devices events) := by
  apply afterEvents_induction
  · exact Or.inr ⟨[], rfl⟩
  · intro e _ st h
    -- a message and a change of the devices are one beat each, the loops are rows of beats
    cases e with
    | message now m => exact h.beat ⟨now, .sent m⟩
    | timers clock => exact (fireDue_played clock st h).stateAfter
    | mailbox mail due => exact (drainMailbox_played mail due st h).stateAfter
    | run clock => exact Or.inl (run_stops clock st).stateAfter
    | teardown => exact Or.inl (teardown_stops st).stateAfter
    | devices change posted => exact h.beat ⟨.still 0, .devices change posted⟩

/-! ## The order of the frames -/

/-- At the start nothing has been presented, and nothing offered. -/
theorem opening_playing (tolerance : Int) (devices : σ) : Playing [] (opening tolerance devices) :=
  ⟨new_matched tolerance, rfl, rfl⟩

/-- From the start any beats that do not stop the session go on playing. -/
theorem play_playing (P : Platform σ) (tolerance : Int) (devices : σ) (beats : List (Beat σ))
    (hrunning : (play P beats (opening tolerance devices)).1.stopped = false) :
    Playing (presented P beats (opening tolerance devices))
        (play P beats (opening tolerance devices)) ∧
      ∀ clock, OnTime P clock beats (opening tolerance devices) →
        Scheduler.Sorted (presented P beats (opening tolerance devices)) := by
  have hplay (clock : Int) := ((opening_playing tolerance devices).play P beats clock).resolve_left
    fun heq => by simp [hrunning] at heq
  refine ⟨(hplay 0).1, ?_⟩
  intro clock hontime
  exact (hplay clock).2 hontime ⟨List.Pairwise.nil, by simp⟩

/-- **Frames are accepted in the order in which they are presented exactly if each is accepted in
turn.** After any beats that have not stopped the session (every run goes beat by beat, see
`afterEvents_played`), whatever the devices answered: the frames that were taken from the queue were
offered to the decoder, each for the first time in that order, and each was accepted or is deferred.
Those that were accepted are the first of them, in that order, if and only if the decoder accepted
none while an earlier one waited. If none waits any more, all were accepted in that order under the
same condition. Frames that came before their times, under a clock that does not go back, are
presented in the order of their times. -/
theorem play_accepts_in_order_iff (P : Platform σ) (tolerance : Int) (devices : σ)
    (beats : List (Beat σ))
    (hrunning : (play P beats (opening tolerance devices)).1.stopped = false) :
    let start := opening tolerance devices
    let shown := presented P beats start
    let slots := shown.map (·.slot)
    let calls := (play P beats start).2.devices.calls
    (standing calls).offered = slots ∧
      ((standing calls).accepted ++ (standing calls).waiting).Perm slots ∧
      (play P beats start).1.deferredFrames = (standing calls).waiting.map (·, .render) ∧
      ((standing calls).accepted <+: slots ↔ InTurn calls) ∧
      ((standing calls).waiting = [] → ((standing calls).accepted = slots ↔ InTurn calls)) ∧
      ∀ clock, OnTime P clock beats start → shown.Pairwise fun f g => f.pts ≤ g.pts := by
  intro start shown slots calls
  obtain ⟨hplaying, hsorted⟩ := play_playing P tolerance devices beats hrunning
  have hoffered : (standing calls).offered = slots := hplaying.offered
  have hwhole : ((standing calls).accepted ++ (standing calls).waiting).Perm slots := by
    rw [← hoffered]
    exact (standing_whole calls).symm
  have hprefix : (standing calls).accepted <+: slots ↔ InTurn calls := by
    rw [← hoffered]
    exact accepted_prefix_iff calls
  refine ⟨hoffered, hwhole, hplaying.linked, hprefix, ?_, hsorted⟩
  -- nothing waits, so what was accepted is as long as what was presented, and a prefix of that
  -- length is all of it
  intro hnone
  rw [hnone, List.append_nil] at hwhole
  rw [← hprefix]
  constructor
  · intro heq
    exact heq ▸ List.prefix_rfl
  · intro hfirst
    exact hfirst.eq_of_length hwhole.length_eq

/-- A decoder that is never too busy for a frame accepts all frames in the order in which they are
presented. -/
theorem play_accepts_all (P : Platform σ) (tolerance : Int) (devices : σ) (beats : List (Beat σ))
    (hrunning : (play P beats (opening tolerance devices)).1.stopped = false)
    (hready : ∀ serial slot e, .decoder .video serial (.renderOutput slot) (some e) ∉
      (play P beats (opening tolerance devices)).2.devices.calls) :
    (frames (play P beats (opening tolerance devices)).2).accepted =
      (presented P beats (opening tolerance devices)).map (·.slot) := by
  have hplaying := (play_playing P tolerance devices beats hrunning).1
  exact (accepted_of_never_refused hready).1.trans hplaying.offered

/-- Decoders that are too busy for as many frames as the state says, and take every other call. -/
def hesitant : Platform Nat where
  createDecoder _ _ n := (return, n)
  decoder _ c n :=
    match c, n with
    | .renderOutput _, n + 1 => ((throw .busy, []), n)
    | _, n => ((return, []), n)
  inputSlots _ _ := 4
  outputSlots _ _ := 4
  createAudio _ n := (return, n)
  audio := {
    frameCount := fun _ => 480
    frameSize := fun _ => 4
    sampleRate := fun _ => 48000
    position := fun _ => 0
    write := fun bytes n => (return bytes.length, n)
    stop := id }
  stopSurface := id

/-- Two frames come before their times, and then all timers are heard. -/
def twoFrames : List (Beat Nat) :=
  [⟨.still 0, .sent (.setFormat 0 (.video "video/avc" 64 64))⟩,
    ⟨.still 0, .sent (.outputReady 0 0 1000 [])⟩, ⟨.still 0, .sent (.outputReady 0 1 2000 [])⟩,
    ⟨.still 2000, .timers⟩, ⟨.still 12000, .timers⟩]

/-- A decoder that is never too busy takes both frames in turn. -/
theorem twoFrames_in_turn :
    (play hesitant twoFrames (opening 0 0)).1.stopped = false ∧
      InTurn (play hesitant twoFrames (opening 0 0)).2.devices.calls := by
  have hrunning : (play hesitant twoFrames (opening 0 0)).1.stopped = false := by decide +kernel
  have hprefix : (standing (play hesitant twoFrames (opening 0 0)).2.devices.calls).accepted <+:
      (presented hesitant twoFrames (opening 0 0)).map (·.slot) := by decide +kernel
  exact ⟨hrunning, (play_accepts_in_order_iff hesitant 0 0 twoFrames hrunning).2.2.2.1.mp hprefix⟩

/-- A decoder that is too busy for the first frame when it is offered gets the second one before
it is offered the first again: the frame with the later time is accepted first. -/
theorem deferred_frame_overtaken :
    let start : Session × World (Recorded Nat) := opening 0 1
    let calls := (play hesitant twoFrames start).2.devices.calls
    (∀ t slot n, (hesitant.decoder t (.renderOutput slot) n).1.1 = .ok () ∨
      (hesitant.decoder t (.renderOutput slot) n).1.1 = .error .busy) ∧
    (play hesitant twoFrames start).1.stopped = false ∧ OnTime hesitant 0 twoFrames start ∧
    (presented hesitant twoFrames start).map (fun f => (f.slot, f.pts)) = [(0, 1000), (1, 2000)] ∧
    (standing calls).accepted = [1, 0] ∧ (standing calls).waiting = [] := by
  refine ⟨?_, ?_⟩
  · intro t slot n
    cases n with
    | zero => exact Or.inl rfl
    | succ n => exact Or.inr rfl
  · decide +kernel

end Playout.Session
