import Playout.Proofs.Audio.Stream

/-!
# Runs of a pacer

A run is a row of events. Whatever the output answers, after each of them

    returned ++ queued = outputs that came, in their order        (as slots)
    taken ++ waiting   = bytes that came, in their order          (until `releaseAll`)

and a push leaves a front buffer only with bytes left in it. A `releaseAll` skips what waits, so the
stream starts again behind it: `Tracked` carries the calls and outputs up to the last one apart.
-/

namespace Playout

variable {α : Type}

/-- What goes back in a row of releases. -/
theorem returnedIn_releases (slots : List Nat) :
    returnedIn (slots.map .release : List (AudioCall α)) = slots := by
  simp [returnedIn, List.flatMap_map, AudioCall.returned]

theorem takenIn_releases (slots : List Nat) :
    takenIn (slots.map .release : List (AudioCall α)) = [] := by
  simp [takenIn, List.flatMap_map, AudioCall.taken]

theorem returnedIn_append (calls more : List (AudioCall α)) :
    returnedIn (calls ++ more) = returnedIn calls ++ returnedIn more :=
  List.flatMap_append

theorem takenIn_append (calls more : List (AudioCall α)) :
    takenIn (calls ++ more) = takenIn calls ++ takenIn more :=
  List.flatMap_append

theorem outputsOf_concat (events : List (PacerEvent α)) (e : PacerEvent α) :
    outputsOf (events ++ [e]) = outputsOf events ++ e.output?.toList := by
  unfold outputsOf
  rw [List.filterMap_append]
  cases h : e.output? <;> simp [h]

namespace Pacer

open Playout.Action

variable {device : AudioDevice α} {release : Nat → Action α Unit} {p : Pacer} {t : Taped α}

/-! ## Letting go of the queue -/

/-- The buffers in `gone` went back from the front of the queue, and `left` is what is queued
still. -/
structure LetGo (p : Pacer) (t : Taped α) (gone left : List QueuedAudio) (r : Pacer × Taped α) :
    Prop where
  split : p.queue = gone ++ left
  some : gone = [] → left = []
  pacer : r.1 = { p with queue := left, pushPending := r.1.pushPending }
  calls : r.2.calls = t.calls ++ (gone.map (·.slot)).map .release

/-- The decoder refused the buffer `refused` with the fault `e`. Those before it went back, and
those behind it are queued still. -/
def BrokenOff (release : Nat → Action α Unit) (p : Pacer) (t : Taped α) (e : Fault)
    (r : Pacer × Taped α) : Prop :=
  ∃ before refused left, LetGo p t (before ++ [refused]) left r ∧
    ∃ a a', release refused.slot a = .error e a'

theorem LetGo.of_empty (hqueue : p.queue = []) : LetGo p t p.queue [] (p, t) where
  split := by rw [List.append_nil]
  some := fun _ => rfl
  pacer := by rw [← hqueue]
  calls := by simp [hqueue]

/-- The front buffer goes back, and then others. -/
theorem LetGo.cons {front : QueuedAudio} {others gone left : List QueuedAudio} {a : α}
    {r : Pacer × Taped α} (hqueue : p.queue = front :: others)
    (h : LetGo { p with queue := others } ⟨a, t.calls ++ [.release front.slot]⟩ gone left r) :
    LetGo p t (front :: gone) left r where
  split := by
    have hsplit : others = gone ++ left := h.split
    rw [hqueue, hsplit, List.cons_append]
  some := fun hnil => absurd hnil (List.cons_ne_nil _ _)
  pacer := h.pacer
  calls := by
    rw [h.calls]
    simp

/-- The buffers go back one by one, until the decoder refuses one. -/
theorem releaseQueue_ends (n : Nat) (hn : p.queue.length ≤ n) :
    (releaseQueue (tapedRelease release) n).Ends (p, t) (fun _ r => LetGo p t p.queue [] r)
      fun e r => BrokenOff release p t e r := by
  induction n generalizing p t with
  | zero => exact LetGo.of_empty (List.length_eq_zero_iff.mp (Nat.le_zero.mp hn))
  | succ n ih =>
    simp only [releaseQueue, ends_bind, ends_get]
    cases hqueue : p.queue with
    | nil =>
      have hempty : LetGo p t p.queue [] (p, t) := .of_empty hqueue
      rwa [hqueue] at hempty
    | cons front others =>
      rw [hqueue] at hn
      have hothers : others.length ≤ n := Nat.le_of_succ_le_succ hn
      simp only [ends_bind, ends_update, ends_onSecond, tapedRelease, ends_focus]
      -- the front buffer is out of the queue already when it is offered, accepted or not
      apply (ends_self _ _).imp
      · intro _ a _
        apply (ih hothers).imp
        · intro _ r h
          exact h.cons hqueue
        · rintro e r ⟨before, refused, left, h, hrefused⟩
          exact ⟨front :: before, refused, left, h.cons hqueue, hrefused⟩
      · intro e a hrefused
        exact ⟨[], front, others, ⟨hqueue, by simp, rfl, rfl⟩, _, a, hrefused⟩

/-- All buffers go back unless one is refused. -/
theorem releaseAll_ends : (releaseAll (tapedRelease release)).Ends (p, t)
    (fun _ r => LetGo p t p.queue [] r) fun e r => BrokenOff release p t e r := by
  simp only [releaseAll, ends_bind, ends_update, ends_get]
  -- the mark for a pending push is cleared first, which is nothing to the buffers
  have hqueue : (releaseQueue (tapedRelease release) p.queue.length).Ends
      ({ p with pushPending := false }, t)
      (fun _ r => LetGo { p with pushPending := false } t p.queue [] r)
      fun e r => BrokenOff release { p with pushPending := false } t e r :=
    releaseQueue_ends p.queue.length (Nat.le_refl _)
  apply hqueue.imp
  · intro _ r h
    exact ⟨h.split, h.some, h.pacer, h.calls⟩
  · rintro e r ⟨before, refused, left, h, hrefused⟩
    exact ⟨before, refused, left, ⟨h.split, h.some, h.pacer, h.calls⟩, hrefused⟩

/-! ## The front of the queue after a push -/

/-- Writing stops at a buffer of which something is left. -/
theorem write_front (device : AudioDevice α) (release : Nat → Action α Unit) (n : Nat)
    (p : Pacer) (a : α) (hn : p.queue.length ≤ n) :
    (write device release n).Ends (p, a) (fun _ r => ∀ front ∈ r.1.queue.head?, front.rest ≠ [])
      fun _ _ => True := by
  induction n generalizing p a with
  | zero =>
    have hempty : p.queue = [] := List.length_eq_zero_iff.mp (Nat.le_zero.mp hn)
    show ∀ front ∈ p.queue.head?, front.rest ≠ []
    simp [hempty]
  | succ n ih =>
    simp only [write, ends_bind, ends_get]
    cases hqueue : p.queue with
    | nil =>
      show ∀ front ∈ p.queue.head?, front.rest ≠ []
      simp [hqueue]
    | cons front others =>
      rw [hqueue] at hn
      simp only [ends_bind]
      refine (offer_ends device front.rest p a).imp ?_ fun _ _ _ => trivial
      rintro taken ⟨p', a'⟩ rfl
      simp only [ends_get, ends_update, ends_ite, ends_bind, ends_onSecond]
      split
      · next hleft => -- the loop ends here, with what is left
        intro b hb
        obtain rfl := Option.some.inj hb
        show front.rest.drop taken ≠ []
        exact mt List.drop_eq_nil_iff.mp (Nat.not_le.mpr hleft)
      · exact ends_of_forall (fun _ a => ih _ a (Nat.le_of_succ_le_succ hn)) fun _ _ => trivial

/-- So does a push. -/
theorem push_front (device : AudioDevice α) (release : Nat → Action α Unit) (p : Pacer) (a : α) :
    (push device release).Ends (p, a) (fun _ r => ∀ front ∈ r.1.queue.head?, front.rest ≠ [])
      fun _ _ => True := by
  simp only [push, schedule, ends_bind, ends_update, ends_get, ends_ite, ends_pure]
  have hwrite := write_front device release p.queue.length { p with pushPending := false } a
    (Nat.le_refl _)
  refine hwrite.imp ?_ fun _ _ he => he
  intro _ r hr
  split <;> exact hr

/-! ## The run -/

/-- What a run has done so far. The calls in `earlier` are those up to the last `releaseAll`, and
`gone` are the outputs that they were about. -/
def Tracked (device : AudioDevice α) (S : Nat) (events : List (PacerEvent α))
    (st : Pacer × Taped α) : Prop :=
  ∃ earlier gone current, outputsOf events = gone ++ current ∧
    returnedIn earlier = gone.map (·.slot) ∧
    (.releaseAll ∉ events → earlier = [] ∧ gone = []) ∧
    InStep device S earlier current st.1 st.2

section Tracked

variable {S : Nat} {events : List (PacerEvent α)}

theorem InStep.enqueue {earlier : List (AudioCall α)} {current : List DecodedOutput}
    (h : InStep device S earlier current p t) (o : DecodedOutput) (pending : Bool) :
    InStep device S earlier (current ++ [o])
      { p with queue := p.queue ++ [whole o], pushPending := pending } t := by
  obtain ⟨calls, hcalls, heach, done, left, begun, hcurrent, hholding, hreturned, htaken⟩ := h.since
  refine ⟨⟨h.counted.bytes, h.counted.frames, h.counted.begun⟩, calls, hcalls, heach.later o, done,
    left ++ [o], begun, ?_, hholding.concat o, hreturned, htaken⟩
  rw [hcurrent, List.append_assoc]

/-- An output that comes is the last one of the stream. -/
theorem Tracked.enqueue (h : Tracked device S events (p, t)) (o : DecodedOutput) :
    (Pacer.enqueue device.taped o).Ends (p, t)
      (fun _ r => Tracked device S (events ++ [.enqueue o]) r) fun _ _ => False := by
  obtain ⟨earlier, gone, current, houtputs, hearlier, hnone, hstep⟩ := h
  -- whether a push is asked for does not matter to the stream
  have hqueued (pending : Bool) : Tracked device S (events ++ [.enqueue o])
      ({ p with queue := p.queue ++ [whole o], pushPending := pending }, t) := by
    refine ⟨earlier, gone, current ++ [o], ?_, hearlier, ?_, hstep.enqueue o pending⟩
    · rw [outputsOf_concat, houtputs, List.append_assoc]
      rfl
    · simpa using hnone
  simp only [Pacer.enqueue, schedule, ends_bind, ends_update, ends_get, ends_ite, ends_pure]
  split
  · exact hqueued p.pushPending
  · exact hqueued true

/-- When buffers have gone back unwritten, the stream starts again with the first one
behind them. -/
theorem Tracked.letGo (h : Tracked device S events (p, t)) {r : Pacer × Taped α}
    {gone left : List QueuedAudio} (hgone : LetGo p t gone left r) :
    Tracked device S (events ++ [.releaseAll]) r := by
  obtain ⟨earlier, past, current, houtputs, hearlier, -, hcounted, hsince⟩ := h
  obtain ⟨calls, hcalls, -, done, waiting, begun, hcurrent, hholding, hreturned, -⟩ := hsince
  -- the outputs of the buffers that went back join those that are past
  obtain ⟨first, last, rfl, rfl, hfirst⟩ := hholding.behind hgone.split hgone.some
  have htaken : takenIn r.2.calls = takenIn t.calls := by
    rw [hgone.calls, takenIn_append, takenIn_releases, List.append_nil]
  refine ⟨r.2.calls, past ++ done ++ first, last, ?outputs, ?returned, ?none, ?counted, ?since⟩
  case outputs =>
    rw [outputsOf_concat, houtputs, hcurrent]
    simp [PacerEvent.output?]
  case returned =>
    rw [hgone.calls, returnedIn_append, returnedIn_releases, hcalls, returnedIn_append, hearlier,
      hreturned, ← hfirst]
    simp
  case none =>
    intro hnone
    simp at hnone
  case counted =>
    refine ⟨?_, ?_, ?_⟩ <;> rw [hgone.pacer, htaken]
    · exact hcounted.bytes
    · exact hcounted.frames
    · exact hcounted.begun
  case since => -- nothing has been written of what is queued still
    refine ⟨[], ?_, ?_, [], last, [], rfl, ?_, rfl, rfl⟩
    · rw [List.append_nil]
    · intro before c after hnil
      simp at hnil
    · rw [hgone.pacer]
      exact .ofWhole last

/-- A push writes on from where the stream was, wherever it breaks off. -/
theorem Tracked.push (hS : 0 < S) (hsize : ∀ a, device.frameSize a = S)
    (haccepts : ∀ bytes a n, (device.write bytes a).1 = .ok n → n ≤ bytes.length)
    (release : Nat → Action α Unit) (h : Tracked device S events (p, t)) :
    (push device.taped (tapedRelease release)).Ends (p, t)
      (fun _ r => Tracked device S events r) fun _ r => Tracked device S events r := by
  obtain ⟨earlier, gone, current, houtputs, hearlier, hnone, hstep⟩ := h
  have hkeep := inStep_writesKeep hS hsize haccepts earlier current
  apply (hkeep.push release hstep).imp
  · intro _ r hr
    exact ⟨earlier, gone, current, houtputs, hearlier, hnone, hr⟩
  · intro _ r hr
    exact ⟨earlier, gone, current, houtputs, hearlier, hnone, hr⟩

/-- After any events, by induction on the last one, queue and tape are in step. -/
theorem tracked_afterEvents (hS : 0 < S) (hsize : ∀ a, device.frameSize a = S)
    (haccepts : ∀ bytes a n, (device.write bytes a).1 = .ok n → n ≤ bytes.length)
    (release : Nat → Action α Unit) (a : α) (events : List (PacerEvent α)) :
    Tracked device S events (afterEvents device release a events) := by
  apply afterEvents_induction
  case hnew =>
    refine ⟨[], [], [], rfl, rfl, fun _ => ⟨rfl, rfl⟩, ⟨rfl, ?_, ?_⟩, ?_⟩
    · show 0 = UInt32.ofNat (0 / S)
      rw [Nat.zero_div]
      rfl
    · exact (Nat.zero_mod S).symm
    · refine ⟨[], rfl, ?_, [], [], [], rfl, .empty, rfl, rfl⟩
      intro before c after hnil
      simp at hnil
  case hperform =>
    rintro events e ⟨p, t⟩ h
    cases e with
    | enqueue o =>
      apply Ends.stateAfter
      apply (h.enqueue o).imp
      · intro _ r hr
        exact hr
      · intro _ r hr
        exact hr.elim
    | push =>
      have hpush := (h.push hS hsize haccepts release).stateAfter
      obtain ⟨earlier, gone, current, houtputs, hearlier, hnone, hstep⟩ := hpush
      refine ⟨earlier, gone, current, ?_, hearlier, ?_, hstep⟩
      · simpa [outputsOf_concat, PacerEvent.output?] using houtputs
      · simpa using hnone
    -- whether all buffers go back or the decoder refuses one, the stream starts again behind them
    | releaseAll =>
      apply Ends.stateAfter
      apply releaseAll_ends.imp
      · intro _ r hall
        exact h.letGo hall
      · rintro _ r ⟨_, _, _, hbroken, -⟩
        exact h.letGo hbroken
    | devices change => -- playing is no call, so the tape does not notice
      obtain ⟨earlier, gone, current, houtputs, hearlier, hnone, hcounted, hsince⟩ := h
      refine ⟨earlier, gone, current, ?_, hearlier, ?_, ⟨?_, ?_, ?_⟩, hsince⟩
      · simpa [outputsOf_concat, PacerEvent.output?] using houtputs
      · simpa using hnone
      · exact hcounted.bytes
      · exact hcounted.frames
      · exact hcounted.begun

/-- The slots that went back and those that are queued are all that came. -/
theorem Tracked.slots_eq (h : Tracked device S events (p, t)) :
    returnedIn t.calls ++ p.slots = (outputsOf events).map (·.slot) := by
  obtain ⟨earlier, gone, current, houtputs, hearlier, -, -, hsince⟩ := h
  obtain ⟨calls, hcalls, -, done, left, begun, hcurrent, hholding, hreturned, -⟩ := hsince
  rw [hcalls, returnedIn_append, hearlier, hreturned, hholding.slots_eq, houtputs, hcurrent]
  simp

/-- Where nothing was let go, the bytes that were taken and those that wait are all that came. -/
theorem Tracked.stream_eq (h : Tracked device S events (p, t)) (hnone : .releaseAll ∉ events) :
    takenIn t.calls ++ p.waiting = streamOf (outputsOf events) := by
  obtain ⟨earlier, gone, current, houtputs, -, hfirst, -, hsince⟩ := h
  obtain ⟨calls, hcalls, -, done, left, begun, hcurrent, hholding, -, htaken⟩ := hsince
  obtain ⟨rfl, rfl⟩ := hfirst hnone
  rw [hcalls, List.nil_append, htaken, List.append_assoc, hholding.waiting_eq, houtputs, hcurrent]
  simp [streamOf]

/-- The calls from `t` to `t'` return outputs in the order in which they came, each when its last
byte has been taken. -/
def WritesOut (events : List (PacerEvent α)) (t t' : Taped α) : Prop :=
  ∃ calls, t'.calls = t.calls ++ calls ∧
    ∀ before slot after, calls = before ++ .release slot :: after →
      ∃ done o left past, outputsOf events = done ++ o :: left ∧ slot = o.slot ∧
        returnedIn (t.calls ++ before) = done.map (·.slot) ∧
        takenIn (t.calls ++ before) = past ++ o.payload ∧
        (.releaseAll ∉ events → past = streamOf done)

/-- A push adds calls to the tape. -/
theorem prefix_writesKeep (calls : List (AudioCall α)) :
    WritesKeep device fun _ t => calls <+: t.calls where
  marked _ _ _ h := h
  idle _ _ h := h
  taken _ _ _ _ _ _ h _ _ _ _ := h.trans (List.prefix_append _ _)
  failed _ _ _ _ _ _ h _ _ _ _ := h.trans (List.prefix_append _ _)
  returned _ _ _ _ _ h _ _ := h.trans (List.prefix_append _ _)

/-- A slot goes back with the last byte of its output. -/
theorem Due.last {earlier before : List (AudioCall α)} {current : List DecodedOutput} {slot : Nat}
    (h : Due device S earlier current before (.release slot)) :
    ∃ done o left, current = done ++ o :: left ∧ slot = o.slot ∧
      returnedIn before = done.map (·.slot) ∧ takenIn before = streamOf done ++ o.payload := by
  obtain ⟨written, left, rfl, hreturned, htaken⟩ := h
  obtain ⟨done, last, rfl, hdone, hlast⟩ := List.map_eq_append_iff.mp hreturned.symm
  obtain ⟨o, rfl, rfl⟩ := List.map_eq_singleton_iff.mp hlast
  refine ⟨done, o, left, ?_, rfl, hdone.symm, ?_⟩
  · rw [List.append_assoc]
    rfl
  · rw [htaken]
    simp [streamOf]

theorem Tracked.push_writesOut (hS : 0 < S) (hsize : ∀ a, device.frameSize a = S)
    (haccepts : ∀ bytes a n, (device.write bytes a).1 = .ok n → n ≤ bytes.length)
    (release : Nat → Action α Unit) (h : Tracked device S events (p, t)) :
    (Pacer.push device.taped (tapedRelease release)).Ends (p, t)
      (fun _ r => WritesOut events t r.2) fun _ r => WritesOut events t r.2 := by
  obtain ⟨earlier, gone, current, houtputs, hearlier, hnone, hstep⟩ := h
  obtain ⟨calls, hcalls, -⟩ := hstep.since
  have hkeep := inStep_writesKeep hS hsize haccepts earlier current
  have hpush := (hkeep.push release hstep).and
    ((prefix_writesKeep t.calls).push release List.prefix_rfl)
  have hdue (r : Pacer × Taped α) (hr : InStep device S earlier current r.1 r.2)
      (hadded : t.calls <+: r.2.calls) : WritesOut events t r.2 := by
    obtain ⟨added, hadded⟩ := hadded
    refine ⟨added, hadded.symm, ?_⟩
    rintro before slot after rfl
    obtain ⟨since, hsince, heach, -⟩ := hr.since
    -- the release is one of the calls since `earlier`
    have hsplit : since = (calls ++ before) ++ .release slot :: after := by
      rw [← hadded, hcalls, List.append_assoc] at hsince
      rw [List.append_assoc]
      exact (List.append_cancel_left hsince).symm
    obtain ⟨done, o, left, hcurrent, hslot, hreturned, htaken⟩ := (heach _ _ _ hsplit).last
    refine ⟨gone ++ done, o, left, takenIn earlier ++ streamOf done, ?_, hslot, ?_, ?_, ?_⟩
    · rw [houtputs, hcurrent, List.append_assoc]
    · rw [hcalls, List.append_assoc, returnedIn_append, hearlier, hreturned, List.map_append]
    · rw [hcalls, List.append_assoc, takenIn_append, htaken, List.append_assoc]
    · intro hfirst
      obtain ⟨rfl, rfl⟩ := hnone hfirst
      rfl
  apply hpush.imp
  · intro _ r hr
    exact hdue r hr.1 hr.2
  · intro _ r hr
    exact hdue r hr.1 hr.2

end Tracked

/-- Nothing is lost and nothing comes twice, on any output that takes no more than it is offered, in
frames of `S` bytes. The counters tell what has been taken. A slot has gone back, or its buffer is
queued. Until a `releaseAll`, the bytes that were taken and those that wait are those that came. A
push returns each buffer when it has been taken whole, and leaves no empty one in front.
`releaseAll` returns all buffers, unless the decoder refuses one. -/
theorem afterEvents_conserves {S : Nat} (hS : 0 < S) (hsize : ∀ a, device.frameSize a = S)
    (haccepts : ∀ bytes a n, (device.write bytes a).1 = .ok n → n ≤ bytes.length)
    (release : Nat → Action α Unit) (a : α) (events : List (PacerEvent α)) :
    let st := afterEvents device release a events
    st.1.bytesWritten = (takenIn st.2.calls).length ∧
    st.1.framesWritten.toNat = st.1.bytesWritten / S % 2 ^ 32 ∧
    st.1.partialBytes = st.1.bytesWritten % S ∧
    returnedIn st.2.calls ++ st.1.slots = (outputsOf events).map (·.slot) ∧
    (.releaseAll ∉ events → takenIn st.2.calls ++ st.1.waiting = streamOf (outputsOf events)) ∧
    (push device.taped (tapedRelease release)).Ends st
      (fun _ r => WritesOut events st.2 r.2 ∧ ∀ front ∈ r.1.queue.head?, front.rest ≠ [])
      (fun _ r => WritesOut events st.2 r.2) ∧
    (releaseAll (tapedRelease release)).Ends st
      (fun _ r => LetGo st.1 st.2 st.1.queue [] r)
      (fun e r => BrokenOff release st.1 st.2 e r) := by
  intro st
  have htracked : Tracked device S events st :=
    tracked_afterEvents hS hsize haccepts release a events
  obtain ⟨p, t⟩ := st
  -- the counters go by the whole tape, also across `releaseAll`
  have hcounted : Counted S p t := by
    obtain ⟨_, _, _, _, _, _, hstep⟩ := htracked
    exact hstep.counted
  refine ⟨hcounted.bytes, ?frames, ?begun, htracked.slots_eq, htracked.stream_eq, ?push,
    releaseAll_ends⟩
  case frames =>
    rw [hcounted.frames, hcounted.bytes, UInt32.toNat_ofNat']
  case begun =>
    rw [hcounted.begun, hcounted.bytes]
  case push =>
    have hwrites := htracked.push_writesOut hS hsize haccepts release
    apply (hwrites.and (push_front device.taped (tapedRelease release) p t)).imp
    · intro _ r hr
      exact hr
    · intro _ r hr
      exact hr.1

/-- A ring of four frames of two bytes that plays nothing, and takes three bytes at once. -/
def trickle : AudioDevice Unit where
  frameCount _ := 4
  frameSize _ := 2
  sampleRate _ := 48000
  position _ := 0
  write bytes a := (.ok (min 3 bytes.length), a)
  stop a := a

/-- Two buffers and three pushes: the ring is full before the second buffer ends. -/
def trickleEvents : List (PacerEvent Unit) :=
  [.enqueue ⟨7, 0, [1, 2, 3, 4, 5]⟩, .push, .enqueue ⟨9, 0, [6, 7, 8, 9]⟩, .push, .push]

theorem trickle_conserves :
    let st := afterEvents trickle (fun _ => pure ()) () trickleEvents
    st.1.bytesWritten = 8 ∧ st.1.framesWritten.toNat = 4 ∧
      returnedIn st.2.calls ++ st.1.slots = [7, 9] ∧
      takenIn st.2.calls ++ st.1.waiting = [1, 2, 3, 4, 5, 6, 7, 8, 9] := by
  intro st
  have hsize : ∀ a, trickle.frameSize a = 2 := fun _ => rfl
  have haccepts : ∀ bytes a n, (trickle.write bytes a).1 = .ok n → n ≤ bytes.length := by
    intro bytes a n hn
    obtain rfl : min 3 bytes.length = n := by simpa [trickle] using hn
    exact Nat.min_le_right _ _
  -- only the number of bytes is computed; the rest follows from it
  obtain ⟨-, hframes, -, hslots, hstream, -⟩ :=
    afterEvents_conserves (by decide) hsize haccepts (fun _ => pure ()) () trickleEvents
  have hbytes : st.1.bytesWritten = 8 := rfl
  have hframes : st.1.framesWritten.toNat = st.1.bytesWritten / 2 % 2 ^ 32 := hframes
  refine ⟨hbytes, ?_, hslots, hstream (by simp [trickleEvents])⟩
  omega

end Pacer

end Playout
