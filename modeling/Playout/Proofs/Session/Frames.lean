import Playout.Proofs.Decode.Returns
import Playout.Proofs.Decode.Retry
import Playout.Proofs.Session.Slots
import Playout.Proofs.Session.Standing
import Playout.Proofs.Video.Order

/-!
# What a message does to the frames

The frames that wait for another offer are those that the pipeline of the video has deferred
(`Linked`). A message leaves the frames alone, or it adds one to the queue of the scheduler, or it
presents some from the front (`Turn`), and what it presents is what the decoder is offered for the
first time (`handle_turned`).
-/

namespace Playout

open Playout.Action

variable {σ : Type}

/-- What the record of a world says of the frames. -/
def frames (w : World (Recorded σ)) : Standing := standing w.devices.calls

/-- Only an output that is to be presented is a frame. -/
theorem frames_call (P : Platform σ) (t : Track) (c : DecoderCall) (w : World (Recorded σ))
    (hc : t = .audio ∨ ∀ slot, c ≠ .renderOutput slot) :
    frames ((P.recorded.decoderDevice t).call c w).2 = frames w := by
  unfold frames
  rw [recorded_call]
  apply standing_of_offersNone
  cases t with
  | audio => trivial
  | video =>
    cases c with
    | renderOutput slot => exact absurd rfl (hc.resolve_left (by decide) slot)
    | _ => trivial

/-- The calls of a decoder that offer no frame leave them where they stand. -/
theorem frames_follows (P : Platform σ) (standing : Standing) :
    (P.recorded.decoderDevice .audio).Follows (fun w => frames w = standing) fun _ => True where
  quiet c w _ h := (frames_call P .audio c w (Or.inl rfl)).trans h
  refused _ _ _ _ := trivial

namespace Pipeline

/-! ## The pipeline of the video -/

/-- What the pipeline has deferred are the frames that wait. -/
def Links (p : Pipeline) (w : World (Recorded σ)) : Prop :=
  p.deferred = (frames w).waiting.map fun slot => (slot, .render)

/-- An offered frame is accepted, or it is deferred. -/
theorem finishReturn_frames (P : Platform σ) (p : Pipeline) (w : World (Recorded σ)) (slot : Nat) :
    (finishReturn (P.recorded.decoderDevice .video) slot .render).Ends (p, w)
      (fun _ r =>
        r.1.deferred = p.deferred ∧ frames r.2 = ((frames w).offer slot).accept slot ∨
        r.1.deferred = p.deferred ++ [(slot, .render)] ∧ frames r.2 = (frames w).offer slot)
      fun e _ => e.isFatal = true := by
  have hcalls := recorded_call P .video (ReturnKind.render.call slot) w
  apply ends_finishReturn
  -- accepted
  · intro hanswer _
    rw [hanswer] at hcalls
    refine Or.inl ⟨rfl, ?_⟩
    unfold frames
    rw [hcalls]
    rfl
  -- too busy: the frame is offered, and waits for another offer
  · intro hanswer
    rw [hanswer] at hcalls
    refine Or.inr ⟨rfl, ?_⟩
    unfold frames
    rw [hcalls]
    rfl
  · intro _ _
    rfl
  · intro _ _ _ _
    rfl

/-- The slots that the pipeline has deferred are the frames that wait. -/
theorem Links.slots {p : Pipeline} {w : World (Recorded σ)} (h : p.Links w) :
    p.deferred.map (·.1) = (frames w).waiting := by
  rw [h, List.map_map]
  exact List.map_id _

/-- A frame waits once. -/
theorem Exact.waiting_nodup {p : Pipeline} {w : World (Recorded σ)} {held : List Nat}
    (h : p.Exact held []) (hlinks : p.Links w) : (frames w).waiting.Nodup := by
  rw [← hlinks.slots]
  exact h.returning_nodup

/-- A frame that a renderer holds does not wait. -/
theorem Exact.not_waiting {p : Pipeline} {w : World (Recorded σ)} {held : List Nat} {slot : Nat}
    (h : p.Exact (slot :: held) []) (hlinks : p.Links w) : slot ∉ (frames w).waiting := by
  rw [← hlinks.slots]
  exact h.returning_state.not_mem (h.held_state slot List.mem_cons_self) (by decide)

/-- The frames `held` are still to be presented, and with those that were offered they make up
`total`. -/
def Presenting (total held : List Nat) (r : Pipeline × World (Recorded σ)) : Prop :=
  r.1.Exact held [] ∧ r.1.Links r.2 ∧ (frames r.2).offered ++ held = total

/-- What is presented is offered for the first time, and waits if it is not accepted. -/
theorem returnOutput_frames (P : Platform σ) (total : List Nat) (slot : Nat) (held : List Nat)
    (r : Pipeline × World (Recorded σ)) (h : Presenting total (slot :: held) r) :
    (returnOutput (P.recorded.decoderDevice .video) slot .render).Ends r
      (fun _ r => Presenting total held r) fun e _ => e.isFatal = true := by
  obtain ⟨p, w⟩ := r
  obtain ⟨hexact, hlinks, htotal⟩ := h
  have hfresh := hexact.not_waiting hlinks
  have hoffered : (frames w).offered ++ [slot] ++ held = total := by simpa using htotal
  have hreturned : (returnOutput (P.recorded.decoderDevice .video) slot .render).Ends (p, w)
      (fun _ r => r.1.Links r.2 ∧ (frames r.2).offered ++ held = total)
      fun e _ => e.isFatal = true := by
    simp only [returnOutput, ends_bind]
    apply ends_moveOutput_named
    · intro _
      -- the frame has not been offered before, so this is its first offer, whatever the answer
      refine (finishReturn_frames P _ w slot).imp ?_ fun _ _ he => he
      rintro _ ⟨p', w'⟩ (⟨hdeferred, hframes⟩ | ⟨hdeferred, hframes⟩)
      · refine ⟨?_, ?_⟩
        · unfold Links
          rw [hdeferred, hframes, Standing.waiting_accept_offer hfresh]
          exact hlinks
        · rw [hframes, Standing.offer_of_not_mem hfresh]
          exact hoffered
      · rw [Standing.offer_of_not_mem hfresh] at hframes
        refine ⟨?_, ?_⟩
        · unfold Links
          rw [hdeferred, hframes, List.map_append]
          exact congrArg (· ++ _) hlinks
        · rw [hframes]
          exact hoffered
    · intro _ _ _
      rfl
  exact ((returnOutput_passes .render slot held (p, w) hexact).and hreturned).imp
    (fun _ _ hr => ⟨hr.1, hr.2⟩) fun _ _ hr => hr.2

/-- In a retry those that wait are those that are deferred again, then those that are still to be
offered. -/
def Retrying (offered : List Nat) (rest : List (Nat × ReturnKind))
    (r : Pipeline × World (Recorded σ)) : Prop :=
  r.1.deferred ++ rest = (frames r.2).waiting.map (fun slot => (slot, .render)) ∧
    (frames r.2).waiting.Nodup ∧ (frames r.2).offered = offered

/-- A frame that is offered again is deferred again, or it waits no more. -/
theorem finishReturn_again (P : Platform σ) {offered : List Nat} {rest : List (Nat × ReturnKind)}
    {slot : Nat} {kind : ReturnKind} {r : Pipeline × World (Recorded σ)}
    (h : Retrying offered ((slot, kind) :: rest) r) :
    (finishReturn (P.recorded.decoderDevice .video) slot kind).Ends r
      (fun _ r => Retrying offered rest r) fun e _ => e.isFatal = true := by
  obtain ⟨p, w⟩ := r
  obtain ⟨hwaiting, hnodup, hoffered⟩ := h
  -- the frames that wait are those deferred again, this one, and those still to be offered
  obtain ⟨before, behind, hsplit, hbefore, hbehind⟩ := List.map_eq_append_iff.mp hwaiting.symm
  obtain ⟨slot', after, rfl, hfront, hafter⟩ := List.map_eq_cons_iff.mp hbehind
  obtain ⟨rfl, rfl⟩ := Prod.mk.inj hfront
  have hmem : slot' ∈ (frames w).waiting := by
    rw [hsplit]
    exact List.mem_append_right _ List.mem_cons_self
  refine (finishReturn_frames P p w slot').imp ?_ fun _ _ he => he
  rintro _ ⟨p', w'⟩ (⟨hdeferred, hframes⟩ | ⟨hdeferred, hframes⟩)
  -- accepted now: the frame leaves the middle of the row
  · rw [Standing.offer_of_mem hmem] at hframes
    have hnot : slot' ∉ before := by
      rw [hsplit] at hnodup
      exact fun hin => (List.nodup_append.mp hnodup).2.2 slot' hin slot' List.mem_cons_self rfl
    have herase : (frames w').waiting = before ++ after := by
      rw [hframes]
      show (frames w).waiting.erase slot' = _
      rw [hsplit, List.erase_append_right _ hnot, List.erase_cons_head]
    refine ⟨?_, ?_, ?_⟩
    · rw [hdeferred, herase, List.map_append, hbefore, hafter]
    · rw [hframes]
      exact hnodup.erase _
    · rw [hframes]
      exact hoffered
  -- deferred again: it moves from the rest to those deferred
  · rw [Standing.offer_of_mem hmem] at hframes
    refine ⟨?_, ?_, ?_⟩
    · rw [hdeferred, hframes, List.append_assoc]
      exact hwaiting
    · rw [hframes]
      exact hnodup
    · rw [hframes]
      exact hoffered

/-- A retry offers the frames that wait, in their order. -/
theorem retryReturns_frames (P : Platform σ) {p : Pipeline} {w : World (Recorded σ)}
    (hlinks : p.Links w) (hnodup : (frames w).waiting.Nodup) :
    (retryReturns (P.recorded.decoderDevice .video) id).Ends (p, w)
      (fun _ r => r.1.Links r.2 ∧ (frames r.2).offered = (frames w).offered)
      fun e _ => e.isFatal = true := by
  simp only [retryReturns, ends_bind, ends_get, ends_update]
  -- all that is deferred is still to be offered, and nothing is deferred again yet
  have hstart : Retrying (frames w).offered p.deferred ({ p with deferred := [] }, w) :=
    ⟨hlinks, hnodup, rfl⟩
  refine (ends_forM (I := Retrying (frames w).offered) (E := fun e _ => e.isFatal = true) ?_
    p.deferred hstart).imp ?_ fun _ _ he => he
  · intro entry rest r h
    exact finishReturn_again P h
  · rintro _ r ⟨hlinks', -, hoffered⟩
    rw [List.append_nil] at hlinks'
    exact ⟨hlinks', hoffered⟩

/-- After a retry the decoder may be fed, which leaves the frames alone. -/
theorem retry_frames (P : Platform σ) {p : Pipeline} {w : World (Recorded σ)}
    (hlinks : p.Links w) (hnodup : (frames w).waiting.Nodup) :
    (retry (P.recorded.decoderDevice .video)).Ends (p, w)
      (fun _ r => r.1.Links r.2 ∧ (frames r.2).offered = (frames w).offered)
      fun e _ => e.isFatal = true := by
  simp only [retry, ends_bind]
  refine (retryReturns_frames P hlinks hnodup).imp ?_ fun _ _ he => he
  rintro _ ⟨p', w'⟩ ⟨hlinks', hoffered⟩
  have hinput (slot : Nat) (unit : AccessUnit) (w'' : World (Recorded σ))
      (h : frames w'' = frames w') :
      frames ((P.recorded.decoderDevice .video).call (.queueInput slot unit) w'').2 = frames w' :=
    (frames_call P .video _ w'' (Or.inr fun _ heq => by cases heq)).trans h
  -- feeding leaves what is deferred and the record of the frames alone, and a fault of it is fatal
  have hspared := fillInputs_spares hinput p'.deferred (p', w') ⟨rfl, rfl⟩
  have hheeded : (fillInputs (P.recorded.decoderDevice .video)).Ends (p', w')
      (fun _ t => t.1.Heeded true) fun e _ => e.isFatal = true :=
    fillInputs_heeds (Heeded.of_armed p').returns
  apply (hspared.and hheeded).imp
  · rintro _ r ⟨⟨hdeferred, hframes⟩, -⟩
    unfold Links
    rw [hdeferred, hframes]
    exact ⟨hlinks', hoffered⟩
  · rintro _ _ ⟨-, hfatal⟩
    exact hfatal

end Pipeline

namespace Session

/-- Output slots that the video decoder was too busy for. -/
def deferredFrames (s : Session) : List (Nat × ReturnKind) :=
  s.pipelines.video.elim [] (·.deferred)

/-- The frames that wait are those that the pipeline of the video has deferred. -/
def Linked (st : Session × World (Recorded σ)) : Prop :=
  st.1.deferredFrames = (frames st.2).waiting.map fun slot => (slot, .render)

/-- The frames are where they were. -/
structure SameFrames (st t : Session × World (Recorded σ)) : Prop where
  queue : t.1.scheduler.queue = st.1.scheduler.queue
  deferred : t.1.deferredFrames = st.1.deferredFrames
  frames : frames t.2 = frames st.2

/-- How the queue of the frames whose time is still to come changes at the time `now`, by a message
or without one, and which frames are presented. -/
inductive Turn (now : Int) :
    Option Message → List DecodedOutput → List DecodedOutput → List DecodedOutput → Prop
  | same (next : Option Message) (queue : List DecodedOutput) : Turn now next queue [] queue
  | placed (slot : Nat) (pts : Int) (payload : List UInt8) (queue : List DecodedOutput) :
      Turn now (some (.outputReady 0 slot pts payload)) queue []
        (Scheduler.place ⟨slot, pts, payload⟩ queue)
  | presented (generation : Nat) {first : List DecodedOutput} (rest : List DecodedOutput)
      (due : ∀ f ∈ first, f.pts ≤ now) :
      Turn now (some (.renderVideo generation)) (first ++ rest) first rest

/-- What has been done to the frames: those that were presented are offered, in their order. -/
def Turned (now : Int) (next : Option Message) (st t : Session × World (Recorded σ)) : Prop :=
  Linked t ∧ ∃ first, Turn now next st.1.scheduler.queue first t.1.scheduler.queue ∧
    (frames t.2).offered = (frames st.2).offered ++ first.map (·.slot)

section Turns

variable {now : Int} {next : Option Message} {st t t' : Session × World (Recorded σ)}

/-- Where no frame moves the link holds on. -/
theorem SameFrames.linked (h : SameFrames st t) (hst : Linked st) : Linked t := by
  unfold Linked
  rw [h.deferred, h.frames]
  exact hst

/-- Where no frame moves nothing is presented, whatever the message. -/
theorem SameFrames.turned (h : SameFrames st t) (hst : Linked st) : Turned now next st t := by
  refine ⟨h.linked hst, [], ?_, ?_⟩
  · rw [h.queue]
    exact .same next _
  · rw [h.frames, List.map_nil, List.append_nil]

/-- What leaves the frames alone may follow on a turn. -/
theorem Turned.then (h : Turned now next st t) (hsame : SameFrames t t') :
    Turned now next st t' := by
  obtain ⟨hlinked, first, hturn, hoffered⟩ := h
  refine ⟨hsame.linked hlinked, first, ?_, ?_⟩
  · rw [hsame.queue]
    exact hturn
  · rw [hsame.frames]
    exact hoffered

/-- What leaves the frames alone may come before a turn. -/
theorem Turned.from (h : Turned now next t t') (hsame : SameFrames st t) :
    Turned now next st t' := by
  obtain ⟨hlinked, first, hturn, hoffered⟩ := h
  rw [hsame.queue] at hturn
  rw [hsame.frames] at hoffered
  exact ⟨hlinked, first, hturn, hoffered⟩

end Turns

/-! ## Messages that leave the frames alone -/

section Messages

variable {P : Platform σ} {now : Readings} {time : Int} {m : Message} {s : Session}
  {w : World (Recorded σ)} {t : Track} {p : Pipeline}

/-- A pipeline that goes on leaves the frames where they are, if it keeps what the video has
deferred and offers no frame. -/
theorem sameFrames_withTrack (hp : s.pipelines.get t = some p)
    {r : Pipeline × World (Recorded σ)} (hdeferred : t = .video → r.1.deferred = p.deferred)
    (hframes : frames r.2 = frames w) : SameFrames (s, w) (s.withTrack t r.1, r.2) := by
  refine ⟨rfl, ?_, hframes⟩
  cases t with
  | audio => rfl
  | video =>
    have hvideo : s.pipelines.video = some p := hp
    unfold deferredFrames
    rw [hvideo]
    exact hdeferred rfl

/-- An action on a pipeline that offers no frame moves none. -/
theorem withPipeline_same (track : Nat)
    {a : DecoderDevice (World (Recorded σ)) → Pipeline.Step (World (Recorded σ)) Unit}
    (ha : ∀ t, Pipeline.Spares (fun w' => frames w' = frames w) (a (P.recorded.decoderDevice t))) :
    (withPipeline P.recorded track a).Ends (s, w) (fun _ t => SameFrames (s, w) t)
      fun _ t => SameFrames (s, w) t := by
  have hsame : SameFrames (s, w) (s, w) := ⟨rfl, rfl, rfl⟩
  refine ends_withPipeline track a (fun t p _ hp => ?_) (fun _ => hsame) fun _ _ _ => hsame
  rw [ends_onPipeline]
  apply (ha t p.deferred (p, w) ⟨rfl, rfl⟩).imp
  · intro _ r hr
    exact sameFrames_withTrack hp (fun _ => hr.1) hr.2
  · intro _ r hr
    exact sameFrames_withTrack hp (fun _ => hr.1) hr.2

/-- Feeding a decoder offers no frame. -/
theorem frames_input (P : Platform σ) (t : Track) (standing : Standing) (slot : Nat)
    (unit : AccessUnit) (w : World (Recorded σ)) (h : frames w = standing) :
    frames ((P.recorded.decoderDevice t).call (.queueInput slot unit) w).2 = standing :=
  (frames_call P t _ w (Or.inr fun _ heq => by cases heq)).trans h

/-- A decoder that is set up is offered no frame. -/
theorem configure_frames (P : Platform σ) (t : Track) (standing : Standing) (format : MediaFormat)
    (onSurface : Bool) (h : frames w = standing) :
    (Pipeline.configure (P.recorded.decoderDevice t) format onSurface).Ends
      ({ track := t.number }, w) (fun _ r => r.1.deferred = [] ∧ frames r.2 = standing)
      fun _ r => True ∧ frames r.2 = standing := by
  -- neither call offers a slot
  have hconfigure := (frames_call P t (.configure format onSurface) w
    (Or.inr fun _ heq => by cases heq)).trans h
  have hstart := (frames_call P t .start _ (Or.inr fun _ heq => by cases heq)).trans hconfigure
  apply Pipeline.ends_configure
  · rintro _ rfl
    exact ⟨rfl, hstart⟩
  · intro _
    exact ⟨trivial, hconfigure⟩
  · intro _
    exact ⟨trivial, hstart⟩

/-- Setting a track up moves no frame, also where it fails. -/
theorem setFormat_same (track : Nat) (format : MediaFormat) :
    (setFormat P.recorded track format).Ends (s, w) (fun _ t => SameFrames (s, w) t)
      fun _ t => SameFrames (s, w) t := by
  have hset : (setFormat P.recorded track format).Ends (s, w) (fun _ t => SameFrames (s, w) t)
      fun _ t => True ∧ t.1 = s ∧ frames t.2 = frames w := by
    apply ends_setFormat_keeping (C := fun p => p.deferred = []) (F := fun _ => True)
      (K := fun w' => frames w' = frames w) rfl ?create ?output
      (fun t w' hw' => configure_frames P t _ format (t = .video) hw') trivial trivial
      (fun _ _ _ _ => trivial) (fun _ _ _ => trivial) ?done
    case create =>
      intro t w' hw'
      exact hw'
    case output =>
      intro w' hw'
      exact hw'
    case done =>
      intro t p w' hnone hp hw'
      refine ⟨rfl, ?_, hw'⟩
      cases t with
      | audio => rfl
      | video =>
        -- the video had no pipeline, and the new one has deferred nothing
        have hvideo : s.pipelines.video = none := hnone
        unfold deferredFrames
        rw [hvideo]
        exact hp
  apply hset.imp
  · intro _ t ht
    exact ht
  · rintro _ ⟨s', w'⟩ ⟨-, rfl, hw'⟩
    exact ⟨rfl, rfl, hw'⟩

/-- A push of audio gives slots of the audio back, and those are no frames. -/
theorem pushAudio_same (h : s.Matched) :
    (pushAudio P.recorded now).Ends (s, w) (fun _ t => SameFrames (s, w) t)
      fun _ t => SameFrames (s, w) t := by
  apply ends_pushAudio
  · intro _
    exact ⟨rfl, rfl, rfl⟩
  · intro pacer p hpacer hp
    -- a slot of the audio that goes back is recorded, but as no frame
    have hgive : Passes (giveBack P.recorded .audio .release)
        (Pipeline.Owns fun w' => frames w' = frames w) fun _ _ => True :=
      fun _ _ _ hr => Pipeline.returnOutput_ends (frames_follows P (frames w)) hr .release
    have hwrite (held : List Nat) (bytes : List UInt8) (r : Pipeline × World (Recorded σ))
        (hr : Pipeline.Owns (fun w' => frames w' = frames w) held r) :
        Pipeline.Owns (fun w' => frames w' = frames w) held
          (P.recorded.audioDevice.onSecond.write bytes r).2 :=
      ⟨hr.1, hr.2⟩
    apply (Pacer.push_owns hgive hwrite ⟨(h.fits_pacer hpacer hp).toSound, rfl⟩).imp
    · intro wait r hr
      cases wait with
      | none => exact ⟨rfl, rfl, hr.2⟩
      | some delay => exact ⟨rfl, rfl, hr.2⟩
    · intro _ r hr
      exact ⟨rfl, rfl, hr.1.2⟩

/-- Asking for a retry moves no frame. -/
theorem scheduleRetry_same (t : Track) :
    (scheduleRetry time t).Ends (s, w) (fun _ t => SameFrames (s, w) t) fun _ _ => False := by
  -- the mark is cleared, and what is deferred stays
  have hcleared (p : Pipeline) (hp : s.pipelines.get t = some p) :
      SameFrames (s, w) (s.withTrack t { p with retryNeeded := false }, w) :=
    sameFrames_withTrack (r := ({ p with retryNeeded := false }, w)) hp (fun _ => rfl) rfl
  apply ends_scheduleRetry
  · intro _
    exact ⟨rfl, rfl, rfl⟩
  · intro p hp _
    exact hcleared p hp
  · intro p hp _ _
    exact ⟨rfl, (hcleared p hp).deferred, rfl⟩

end Messages

/-! ## Messages about frames -/

section Frames

variable {P : Platform σ} {now : Readings} {s : Session} {w : World (Recorded σ)}

/-- The link of a session is that of its video pipeline. -/
theorem Linked.links (h : Linked (s, w)) {p : Pipeline} (hp : s.pipelines.get .video = some p) :
    p.Links w := by
  have hvideo : s.pipelines.video = some p := hp
  unfold Linked deferredFrames at h
  rw [hvideo] at h
  exact h

/-- A frame that comes takes its place in the queue. -/
theorem outputReady_turned (h : Linked (s, w)) (track slot : Nat) (pts : Int)
    (payload : List UInt8) :
    let m := some (Message.outputReady track slot pts payload)
    (outputReady P.recorded now track slot pts payload).Ends (s, w)
      (fun _ t => Turned now.frames m (s, w) t)
      fun e t => e.isFatal = true ∨ Turned now.frames m (s, w) t := by
  intro m
  have hsame : Turned now.frames m (s, w) (s, w) := SameFrames.turned ⟨rfl, rfl, rfl⟩ h
  apply ends_outputReady
  case video =>
    intro p ht hp
    have hvideo : s.pipelines.video = some p := hp
    simp only [Pipeline.outputReady, ends_bind, ends_pure]
    apply Pipeline.ends_moveOutput_named
    · intro _
      refine ⟨?_, [], ?_, ?_⟩
      · unfold Linked deferredFrames at h ⊢
        rw [hvideo] at h
        rw [postWakeUp_pipelines]
        exact h
      · rw [postWakeUp_scheduler]
        show Turn now.frames m s.scheduler.queue []
          (s.scheduler.enqueue ⟨slot, pts, payload⟩ now.frames).2.queue
        rw [Scheduler.enqueue_queue]
        -- the video is track 0, and the frame takes its place in the queue
        obtain rfl : track = 0 := Track.eq_number_of_ofNumber? ht
        exact .placed slot pts payload _
      · rw [List.map_nil, List.append_nil]
    · intro _ _ _
      exact Or.inl rfl
  case audio =>
    intro p _ hp
    simp only [Pipeline.outputReady, ends_bind, ends_pure]
    apply Pipeline.ends_moveOutput_named
    · intro _
      refine ⟨?_, ?_⟩
      · intro _
        exact Or.inr (SameFrames.turned ⟨rfl, rfl, rfl⟩ h)
      · intro pacer _
        refine (Pacer.enqueue_ends _ _ pacer w).imp ?_ fun _ _ he => he
        rintro wait q ⟨-, hworld⟩
        refine SameFrames.turned ⟨?_, ?_, ?_⟩ h
        · rw [postPush_scheduler]
          rfl
        · unfold deferredFrames
          rw [postPush_pipelines]
          rfl
        · rw [hworld]
    · intro _ _ _
      exact Or.inl rfl
  case unknown =>
    intro _
    exact Or.inr hsame
  case unset =>
    intro _ _ _
    exact Or.inr hsame

/-- Frames whose time has come are presented. -/
theorem renderVideo_turned (hmatched : s.Matched) (h : Linked (s, w)) (generation : Nat) :
    (renderVideo P.recorded now generation).Ends (s, w)
      (fun _ t => Turned now.frames (some (.renderVideo generation)) (s, w) t)
      fun e _ => e.isFatal = true := by
  apply ends_renderVideo
  case idle =>
    intro _
    exact SameFrames.turned ⟨rfl, rfl, rfl⟩ h
  case rendered =>
    intro p _ hp
    have hlinks := h.links hp
    have hgive := Pipeline.returnOutput_frames P ((frames w).offered ++ s.scheduler.slots)
    -- what leaves the front of the queue is offered to the decoder, in the same order
    refine (Scheduler.renderDue_presents hgive now.frames
      ⟨hmatched.fits .video p hp, hlinks, rfl⟩).imp ?_ fun _ _ he => he
    rintro wait ⟨v, p', w'⟩ ⟨⟨first, hqueue, hdue⟩, -, hlinks', hoffered⟩
    refine ⟨?_, first, ?_, ?_⟩
    · unfold Linked deferredFrames
      rw [postWakeUp_pipelines]
      exact hlinks'
    · rw [postWakeUp_scheduler]
      show Turn now.frames _ s.scheduler.queue first v.queue
      rw [hqueue]
      exact .presented generation v.queue hdue
    · -- what was in the queue is offered now, or it is still there
      have hslots : s.scheduler.slots = first.map (·.slot) ++ v.slots := by
        unfold Scheduler.slots
        rw [hqueue, List.map_append]
      rw [hslots, ← List.append_assoc] at hoffered
      exact List.append_cancel_right hoffered

/-- A retry offers no frame that was not offered before. -/
theorem retry_turned (hmatched : s.Matched) (h : Linked (s, w)) (track : Nat)
    (next : Option Message) :
    (withPipeline P.recorded track Pipeline.retry).Ends (s, w)
      (fun _ t => Turned now.frames next (s, w) t)
      fun e t => e.isFatal = true ∨ Turned now.frames next (s, w) t := by
  have hsame : Turned now.frames next (s, w) (s, w) := SameFrames.turned ⟨rfl, rfl, rfl⟩ h
  apply ends_withPipeline
  case run =>
    intro t p _ hp
    rw [ends_onPipeline]
    cases t with
    | video =>
      have hlinks := h.links hp
      have hnodup := (hmatched.fits .video p hp).waiting_nodup hlinks
      refine (Pipeline.retry_frames P hlinks hnodup).imp ?_ fun _ _ he => Or.inl he
      rintro _ ⟨p', w'⟩ ⟨hlinks', hoffered⟩
      refine ⟨hlinks', [], .same next _, ?_⟩
      rw [List.map_nil, List.append_nil]
      exact hoffered
    | audio =>
      -- the audio decoder is offered no frame at all
      have howns : Pipeline.Owns (fun w' => frames w' = frames w) (s.heldBy .audio) (p, w) :=
        ⟨(hmatched.fits .audio p hp).toSound, rfl⟩
      have hturned (r : Pipeline × World (Recorded σ)) (hr : frames r.2 = frames w) :
          Turned now.frames next (s, w) (s.withTrack .audio r.1, r.2) :=
        SameFrames.turned ⟨rfl, rfl, hr⟩ h
      refine (Pipeline.retry_keeps (frames_follows P (frames w))).ends howns ?_ ?_
      · intro _ r hr
        exact hturned r hr.2
      · intro _ r hr
        exact Or.inr (hturned r hr.2)
  case unknown =>
    intro _
    exact Or.inr hsame
  case unset =>
    intro _ _ _
    exact Or.inr hsame

/-- A retry that comes back is disarmed first, which is nothing to the frames. -/
theorem retryDecoder_turned (hmatched : s.Matched) (h : Linked (s, w)) (track : Nat) :
    (do disarmRetry track; withPipeline P.recorded track Pipeline.retry).Ends (s, w)
      (fun _ t => Turned now.frames (some (.retryDecoder track)) (s, w) t)
      fun e t => e.isFatal = true ∨ Turned now.frames (some (.retryDecoder track)) (s, w) t := by
  simp only [ends_bind]
  apply ends_disarmRetry
  -- the track exists: what the retry does is seen from the session before it was disarmed
  · intro t _
    let disarmed := { s with retryArmed := s.retryArmed.set t false }
    have hsame : SameFrames (s, w) (disarmed, w) := ⟨rfl, rfl, rfl⟩
    have hmatched' : disarmed.Matched := hmatched.reframe rfl rfl rfl fun _ hm => Or.inl hm
    apply (retry_turned hmatched' (hsame.linked h) track _).imp
    · intro _ t ht
      exact ht.from hsame
    · intro _ t ht
      exact ht.imp id fun ht => ht.from hsame
  · intro _
    exact retry_turned hmatched h track _

/-- The session has stopped, or the message has taken its turn. -/
def StoppedOrTurned (time : Int) (m : Message) (st t : Session × World (Recorded σ)) : Prop :=
  t.1.stopped = true ∨ Turned time (some m) st t

/-- What a message says is done to the frames is one turn, if it neither stops the session nor ends
in a fatal fault. Three kinds of messages move frames, and all others leave them where they are. -/
theorem dispatch_turned (hmatched : s.Matched) (h : Linked (s, w)) (m : Message) :
    (dispatch P.recorded now m).Ends (s, w) (fun _ t => StoppedOrTurned now.frames m (s, w) t)
      fun e t => e.isFatal = true ∨ StoppedOrTurned now.frames m (s, w) t := by
  have hsame (a : Step (Recorded σ) Unit)
      (ha : a.Ends (s, w) (fun _ t => SameFrames (s, w) t) fun _ t => SameFrames (s, w) t) :
      a.Ends (s, w) (fun _ t => StoppedOrTurned now.frames m (s, w) t)
        fun e t => e.isFatal = true ∨ StoppedOrTurned now.frames m (s, w) t := by
    apply ha.imp
    · intro _ t ht
      exact Or.inr (ht.turned h)
    · intro _ t ht
      exact Or.inr (Or.inr (ht.turned h))
  have hturned (a : Step (Recorded σ) Unit)
      (ha : a.Ends (s, w) (fun _ t => Turned now.frames (some m) (s, w) t)
        fun e t => e.isFatal = true ∨ Turned now.frames (some m) (s, w) t) :
      a.Ends (s, w) (fun _ t => StoppedOrTurned now.frames m (s, w) t)
        fun e t => e.isFatal = true ∨ StoppedOrTurned now.frames m (s, w) t :=
    ha.imp (fun _ _ ht => Or.inr ht) fun _ _ ht => ht.imp id Or.inr
  -- frames, wake-ups and retries take their own turn; for the others it is enough that no frame
  -- moves
  cases m with
  | setFormat track format => exact hsame _ (setFormat_same track format)
  | queueUnit track unit =>
    apply hsame
    simp only [dispatch, ends_bind, ends_update]
    apply (withPipeline_same (P := P) (s := { s with accessUnits := s.accessUnits + 1 }) track
      fun t => Pipeline.submit_spares (frames_input P t (frames w)) unit).imp
    · intro _ t ht
      exact ⟨ht.queue, ht.deferred, ht.frames⟩
    · intro _ t ht
      exact ⟨ht.queue, ht.deferred, ht.frames⟩
  | inputsAvailable track slots =>
    apply hsame
    simp only [dispatch]
    apply withPipeline_same
    intro t
    exact Pipeline.inputsAvailable_spares (frames_input P t (frames w)) slots
  | outputReady track slot pts payload =>
    exact hturned _ (outputReady_turned h track slot pts payload)
  | pushAudio => exact hsame _ (pushAudio_same hmatched)
  | retryDecoder track => exact hturned _ (retryDecoder_turned hmatched h track)
  | renderVideo generation =>
    apply hturned
    exact (renderVideo_turned hmatched h generation).imp (fun _ _ ht => ht) fun _ _ he => Or.inl he
  | shutdown =>
    apply (teardown_stops (s, w)).imp
    · intro _ t ht
      exact Or.inl ht
    · intro _ t ht
      exact Or.inr (Or.inl ht)

/-- **What a message does to the frames.** If it does not stop the session, it puts one frame into
the queue, or it presents some from its front, or it leaves them alone. -/
theorem handle_turned (hrunning : s.stopped = false) (hmatched : s.Matched) (h : Linked (s, w))
    (m : Message) :
    (handle P.recorded now m).Ends (s, w) (fun _ t => StoppedOrTurned now.frames m (s, w) t)
      fun _ t => StoppedOrTurned now.frames m (s, w) t := by
  have hstep (t : Track) (st : Session × World (Recorded σ))
      (hst : Turned now.frames (some m) (s, w) st) :
      (scheduleRetry (now.retry.get t) t).Ends st
        (fun _ st => Turned now.frames (some m) (s, w) st) fun _ _ => False :=
    (scheduleRetry_same t).imp (fun _ _ hsame => hst.then hsame) fun _ _ he => he
  apply (ends_handle (I := StoppedOrTurned now.frames m (s, w))
    (J := StoppedOrTurned now.frames m (s, w)) (F := fun _ => True)
    hrunning ?dispatch ?retries ?publish ?stopped).imp
  -- the retries that follow on a message and the counts that are shown move no frame
  · intro _ t ht
    exact ht
  · intro _ t ht
    exact ht.2
  case dispatch =>
    apply (dispatch_turned hmatched h m).imp
    · intro _ t ht
      exact ht
    · intro _ t ht
      exact ⟨trivial, ht⟩
  case retries =>
    intro t ht hrun
    have hturned : Turned now.frames (some m) (s, w) t :=
      ht.resolve_left fun heq => by simp [hrun] at heq
    refine (hstep .video t hturned).imp ?_ fun _ _ he => he
    intro _ t' ht'
    exact (hstep .audio t' ht').imp (fun _ _ h => Or.inr h) fun _ _ he => he
  case publish =>
    intro s' w' hs'
    exact hs'.imp id fun hturned => hturned.then ⟨rfl, rfl, rfl⟩
  case stopped =>
    intro t ht
    exact Or.inl ht

end Frames

end Session

end Playout
