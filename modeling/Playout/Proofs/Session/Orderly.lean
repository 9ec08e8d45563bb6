import Playout.Proofs.Decode.Offers
import Playout.Proofs.Session.Slots

/-!
# The order of a teardown

A teardown that ends well tells the devices exactly what is to be told, and in order: the slots that
the renderers hold are offered, the video ones first; then each decoder is offered what it still
defers, and is stopped and released; then the outputs are stopped.

    teardown_in_order : the calls of a teardown are `farewellCalls`, and nothing is held afterwards

What each track takes part in is said by `Drained` and `Concluded`, one for each of the two rounds.
-/

namespace Playout

/-- An offer, as the record of the devices has it. -/
def Offer.record (t : Track) (serial : Nat) (o : Offer) : DeviceCall :=
  .decoder t serial o.call (refusal? o.answer)

/-- What a decoder that is about to be stopped is offered, and what it answers to its release. -/
structure Farewell where
  /-- The slots that the renderer held -/
  first : List Offer
  /-- What is deferred then, once more -/
  again : List Offer
  refusal : Option DecoderError

namespace Farewell

/-- A decoder is offered what it still defers, and is stopped and released. -/
def ending (f : Farewell) (t : Track) (serial : Nat) : List DeviceCall :=
  f.again.map (Offer.record t serial) ++
    [.decoder t serial .stop none, .decoder t serial .release f.refusal]

end Farewell

namespace Session

open Playout.Action

variable {σ : Type} {P : Platform σ} {s : Session} {w : World (Recorded σ)} {t : Track}

/-- The returns that the decoder of a track was too busy for. -/
def deferredBy (s : Session) (t : Track) : List (Nat × ReturnKind) :=
  ((s.pipelines.get t).map (·.deferred)).getD []

/-- The offers are those of the slots that the renderer holds, and of the returns that are deferred
then. Nothing is presented. -/
structure Parting (s : Session) (t : Track) (f : Farewell) : Prop where
  first : f.first.map Offer.entry = (s.heldBy t).map fun slot => (slot, .release)
  again : f.again.map Offer.entry =
    (s.deferredBy t ++ putOff f.first).map fun entry => (entry.1, .release)

/-- What the decoders are told in a teardown, in order. Those of a track are told apart by their
numbers. -/
def decoderCalls (s : Session) (serial : Track → Nat) (f : Track → Farewell) : List DeviceCall :=
  (f .video).first.map (Offer.record .video (serial .video)) ++
  (f .audio).first.map (Offer.record .audio (serial .audio)) ++
  (if s.configured.get .video then (f .video).ending .video (serial .video) else []) ++
  (if s.configured.get .audio then (f .audio).ending .audio (serial .audio) else [])

/-- The calls of a teardown, in order: after the decoders the outputs are stopped. -/
def farewellCalls (s : Session) (serial : Track → Nat) (f : Track → Farewell) : List DeviceCall :=
  decoderCalls s serial f ++ (if s.pacer.isSome then [.stopAudio] else []) ++ [.stopSurface]

/-! ## The part of one track -/

/-- The devices were told `calls`, which say nothing of new decoders. The same tracks are set up. -/
structure Told (calls : List DeviceCall) (before after : Session × World (Recorded σ)) : Prop where
  calls : after.2.devices.calls = calls.reverse ++ before.2.devices.calls
  made : ∀ u, made u after.2.devices.calls = made u before.2.devices.calls
  configured : after.1.configured = before.1.configured
  paired : after.1.pacer.isSome = before.1.pacer.isSome

/-- The part of a track is as it was. -/
structure SameTrack (t : Track) (before after : Session × World (Recorded σ)) : Prop where
  pipeline : after.1.pipelines.get t = before.1.pipelines.get t
  held : after.1.heldBy t = before.1.heldBy t

/-- The renderer of a track has given back all that it held. -/
structure Drained (t : Track) (first : List Offer) (before after : Session × World (Recorded σ)) :
    Prop where
  told : Told (first.map (Offer.record t (made t before.2.devices.calls))) before after
  other : ∀ u ≠ t, SameTrack u before after
  offered : first.map Offer.entry = (before.1.heldBy t).map fun slot => (slot, .release)
  deferred : after.1.deferredBy t = before.1.deferredBy t ++ putOff first
  exact : ∀ p, after.1.pipelines.get t = some p → p.Exact [] []

/-- The pipeline of a track has been torn down. -/
structure Concluded (t : Track) (f : Farewell) (before after : Session × World (Recorded σ)) :
    Prop where
  told : Told (if before.1.configured.get t = true then
    f.ending t (made t before.2.devices.calls) else []) before after
  other : ∀ u ≠ t, SameTrack u before after
  offered : f.again.map Offer.entry =
    (before.1.deferredBy t).map fun entry => (entry.1, .release)
  vacant : ∀ p, after.1.pipelines.get t = some p →
    ∀ slot, p.outputs.state? slot ≠ some .holdingOutput

/-- Both tracks have had both rounds. -/
structure Departed (f : Track → Farewell) (before after : Session × World (Recorded σ)) : Prop where
  told : Told (decoderCalls before.1 (fun t => made t before.2.devices.calls) f) before after
  parting : ∀ t, Parting before.1 t (f t)
  vacant : ∀ t p, after.1.pipelines.get t = some p →
    ∀ slot, p.outputs.state? slot ≠ some .holdingOutput

/-- Offers to a decoder are recorded one for one, and no decoder is made by them. -/
theorem offered_record {offers : List Offer} {w w' : World (Recorded σ)}
    (h : (P.recorded.decoderDevice t).Offered offers w w') :
    w'.devices.calls = (offers.map (Offer.record t (made t w.devices.calls))).reverse ++
      w.devices.calls ∧ ∀ u, made u w'.devices.calls = made u w.devices.calls := by
  induction h with
  | nil w => exact ⟨rfl, fun _ => rfl⟩
  | snoc o before answered ih =>
    obtain ⟨hcalls, hmade⟩ := ih
    rw [recorded_call, answered]
    refine ⟨?_, fun u => made_decoder.trans (hmade u)⟩
    rw [hmade t, hcalls]
    simp [Offer.record]

/-- Nothing has happened, and nothing was told. -/
theorem Told.refl (st : Session × World (Recorded σ)) : Told [] st st :=
  ⟨rfl, fun _ => rfl, rfl, rfl⟩

/-- What was told in two parts was told one part after the other. -/
theorem Told.trans {calls more : List DeviceCall}
    {before middle after : Session × World (Recorded σ)} (h : Told calls before middle)
    (h' : Told more middle after) : Told (calls ++ more) before after where
  calls := by rw [h'.calls, h.calls, List.reverse_append, List.append_assoc]
  made u := (h'.made u).trans (h.made u)
  configured := h'.configured.trans h.configured
  paired := h'.paired.trans h.paired

theorem SameTrack.refl (t : Track) (st : Session × World (Recorded σ)) : SameTrack t st st :=
  ⟨rfl, rfl⟩

/-- A track that is as it was defers what it deferred. -/
theorem SameTrack.deferredBy {before after : Session × World (Recorded σ)}
    (h : SameTrack t before after) : after.1.deferredBy t = before.1.deferredBy t := by
  rw [Session.deferredBy, h.pipeline]
  rfl

theorem deferredBy_of_some {p : Pipeline} (hp : s.pipelines.get t = some p) :
    s.deferredBy t = p.deferred := by
  rw [deferredBy, hp]
  rfl

theorem deferredBy_of_none (hp : s.pipelines.get t = none) : s.deferredBy t = [] := by
  rw [deferredBy, hp]
  rfl

/-- A track without a pipeline has no part in it. -/
theorem Drained.of_unset {st : Session × World (Recorded σ)} (hp : st.1.pipelines.get t = none)
    (hheld : st.1.heldBy t = []) : Drained t [] st st where
  told := .refl st
  other u _ := .refl u st
  offered := by rw [hheld]; rfl
  deferred := (List.append_nil _).symm
  exact p hsome := by
    rw [hp] at hsome
    cases hsome

/-- Of the slots in `held` the renderer still has those in `rest`, and the others have been offered
to the decoder since `w`. -/
def Draining (P : Platform σ) (t : Track) (p : Pipeline) (w : World (Recorded σ))
    (held rest : List Nat) (r : Pipeline × World (Recorded σ)) : Prop :=
  r.1.Exact rest [] ∧ Pipeline.Offering (P.recorded.decoderDevice t) w p.deferred
    (held.map fun slot => (slot, .release)) (rest.map fun slot => (slot, .release)) r

/-- At the beginning the renderer has all that it holds. -/
theorem Draining.start {p : Pipeline} {held : List Nat} (h : p.Exact held []) :
    Draining P t p w held held (p, w) :=
  ⟨h, [], .nil w, rfl, (List.append_nil _).symm⟩

/-- Each slot that is given back is one offer more, and one slot less to give. -/
theorem giveBack_drains {p : Pipeline} {held : List Nat} (slot : Nat) (rest : List Nat)
    (r : Pipeline × World (Recorded σ)) (h : Draining P t p w held (slot :: rest) r) :
    (giveBack P.recorded t .release slot).Ends r (fun _ r => Draining P t p w held rest r)
      fun _ _ => True :=
  ((Pipeline.returnOutput_passes .release slot rest r h.1).and
    (Pipeline.returnOutput_offers h.2)).imp (fun _ _ hr => hr) fun _ _ _ => trivial

/-- Where all slots have been given back, the rest of the session is as it was. -/
theorem Draining.drained {s' : Session} {p p' : Pipeline} {w' : World (Recorded σ)}
    (hp : s.pipelines.get t = some p) (hset : s'.pipelines = s.pipelines.set t (some p'))
    (hother : ∀ u ≠ t, s'.heldBy u = s.heldBy u) (hpaired : s'.pacer.isSome = s.pacer.isSome)
    (h : Draining P t p w (s.heldBy t) [] (p', w')) : ∃ first, Drained t first (s, w) (s', w') := by
  obtain ⟨hexact, first, hoffered, hall, hdeferred⟩ := h
  have hself : s'.pipelines.get t = some p' := by rw [hset, PerTrack.get_set_self]
  -- the offers of this track are all that was told, and the other track is as it was
  obtain ⟨hcalls, hmade⟩ := offered_record hoffered
  refine ⟨first, ⟨hcalls, hmade, configured_renew hp hset, hpaired⟩, fun u hu => ?_, ?_, ?_, ?_⟩
  · exact ⟨by rw [hset, s.pipelines.get_set_of_ne hu], hother u hu⟩
  · simpa using hall
  · rw [deferredBy_of_some hself, deferredBy_of_some hp]
    exact hdeferred
  · intro q hq
    rw [hself] at hq
    cases hq
    exact hexact

/-- The video renderer gives back all that it holds, and nothing else happens. -/
theorem releaseVideo_drains (h : s.Matched) :
    (releaseVideo P.recorded).Ends (s, w)
      (fun _ r => ∃ first, Drained .video first (s, w) r) fun _ _ => True := by
  apply ends_releaseVideo
  · intro hp
    exact ⟨[], .of_unset hp (h.idle .video hp)⟩
  · intro p hp
    have hstart : Draining P .video p w (s.heldBy .video) s.scheduler.slots (p, w) :=
      .start (h.fits .video p hp)
    refine (Scheduler.releaseAll_gives (E := fun _ _ _ => True) giveBack_drains hstart).imp ?_
      fun _ _ _ => trivial
    -- the other track is as it was, since only this pipeline was worked on
    rintro _ ⟨v, p', w'⟩ ⟨hempty, hdraining⟩
    refine hdraining.drained hp rfl (fun u hu => ?_) rfl
    cases u
    · exact absurd rfl hu
    · rfl

/-- The audio renderer gives back all that it holds, and nothing else happens. -/
theorem releaseAudio_drains (h : s.Matched) :
    (releaseAudio P.recorded).Ends (s, w)
      (fun _ r => ∃ first, Drained .audio first (s, w) r) fun _ _ => True := by
  apply ends_releaseAudio
  · intro hunset
    -- the audio has a pacer exactly if it has a pipeline, so both are missing
    have hp : s.pipelines.get .audio = none := by
      rcases hunset with hpacer | hp
      · have hpaired := h.paired
        rw [hpacer] at hpaired
        exact Option.not_isSome_iff_eq_none.mp (by simp [PerTrack.get, ← hpaired])
      · exact hp
    exact ⟨[], .of_unset hp (h.idle .audio hp)⟩
  · intro pacer p hpacer hp
    have hheld : s.heldBy .audio = pacer.slots := by simp [heldBy, hpacer]
    have hstart : Draining P .audio p w (s.heldBy .audio) pacer.slots (p, w) := by
      rw [hheld]
      exact .start (h.fits_pacer hpacer hp)
    refine (Pacer.releaseAll_gives (E := fun _ _ _ => True) giveBack_drains hstart).imp ?_
      fun _ _ _ => trivial
    rintro _ ⟨pacer', p', w'⟩ ⟨hempty, hdraining⟩
    refine hdraining.drained hp rfl (fun u hu => ?_) (by rw [hpacer]; rfl)
    cases u
    · rfl
    · exact absurd rfl hu

/-- A pipeline that is torn down offers what it defers, and its decoder is stopped and released. -/
theorem teardownPipeline_concludes (hexact : ∀ p, s.pipelines.get t = some p → p.Exact [] [])
    (first : List Offer) :
    (teardownPipeline P.recorded t).Ends (s, w)
      (fun _ r => ∃ f : Farewell, f.first = first ∧ Concluded t f (s, w) r) fun _ _ => True := by
  apply ends_teardownPipeline
  -- a track that is not set up has no part in the second round either
  · intro hp
    have hunset : s.configured.get t = false := by rw [configured_get, hp]; rfl
    refine ⟨⟨first, [], none⟩, rfl, ?_, fun u _ => .refl u _, ?_, fun p hsome => ?_⟩
    · simp only [hunset, Bool.false_eq_true, if_false]
      exact .refl _
    · rw [deferredBy_of_none hp]
      rfl
    · rw [hp] at hsome
      cases hsome
  · intro p hp
    refine (Pipeline.teardown_offers (hexact p hp)).imp ?_ fun _ _ _ => trivial
    rintro _ ⟨p', w'⟩ ⟨again, w'', hoffered, hall, hstop, rfl, hvacant⟩
    obtain ⟨hcalls, hmade⟩ := offered_record hoffered
    have hset : s.configured.get t = true := by rw [configured_get, hp]; rfl
    refine ⟨⟨first, again, refusal? ((P.recorded.decoderDevice t).call .release
      ((P.recorded.decoderDevice t).call .stop w'').2).1⟩, rfl,
      ⟨?_, fun u => ?_, configured_renew hp rfl, rfl⟩, fun u hu => ?_, ?_, fun q hq => ?_⟩
    -- the calls in the record: the offers, then the stop, which was not refused, then the release
    · show ((P.recorded.decoderDevice t).call .release
        ((P.recorded.decoderDevice t).call .stop w'').2).2.devices.calls = _
      rw [if_pos hset, recorded_call, recorded_call, hstop, made_decoder, hmade t, hcalls]
      simp [Farewell.ending, refusal?]
    · show made u ((P.recorded.decoderDevice t).call .release
        ((P.recorded.decoderDevice t).call .stop w'').2).2.devices.calls = _
      rw [recorded_call, recorded_call, made_decoder, made_decoder]
      exact hmade u
    · exact ⟨s.pipelines.get_set_of_ne hu _, by cases u <;> rfl⟩
    · rw [hall, deferredBy_of_some hp]
    · have hself : (s.withTrack t p').pipelines.get t = some p' := PerTrack.get_set_self _ _ _
      rw [hself] at hq
      cases hq
      exact hvacant

/-! ## The whole teardown -/

/-- The rounds of one track do not touch what the other defers and holds. -/
theorem departed {st st₁ st₂ st₃ st₄ : Session × World (Recorded σ)} {frames buffers : List Offer}
    {f g : Farewell} (hvideo : Drained .video frames st st₁)
    (haudio : Drained .audio buffers st₁ st₂) (hf : Concluded .video f st₂ st₃)
    (hg : Concluded .audio g st₃ st₄) (hframes : f.first = frames) (hbuffers : g.first = buffers) :
    ∃ part, Departed part st st₄ := by
  have htold := hvideo.told.trans haudio.told
  have htold' := htold.trans hf.told
  have htold'' := htold'.trans hg.told
  -- the decoders have the numbers that they had before all this, and the same tracks are set up
  rw [hvideo.told.made, htold.made, htold'.made, htold.configured, htold'.configured] at htold''
  refine ⟨(PerTrack.mk f g).get, ⟨?_, fun t => ?_, fun t p hp => ?_⟩⟩
  · subst hframes hbuffers
    exact htold''
  · cases t with
    | video =>
      refine ⟨hframes ▸ hvideo.offered, ?_⟩
      show f.again.map Offer.entry = (st.1.deferredBy .video ++ putOff f.first).map _
      -- between the two rounds of the video only the audio has given slots back
      rw [hf.offered, (haudio.other .video (by decide)).deferredBy, hvideo.deferred, hframes]
    | audio =>
      have hsame := hvideo.other .audio (by decide)
      refine ⟨hbuffers ▸ hsame.held ▸ haudio.offered, ?_⟩
      show g.again.map Offer.entry = (st.1.deferredBy .audio ++ putOff g.first).map _
      rw [hg.offered, (hf.other .audio (by decide)).deferredBy, haudio.deferred, hsame.deferredBy,
        hbuffers]
  · cases t with
    | video =>
      rw [(hg.other .video (by decide)).pipeline] at hp
      exact hf.vacant p hp
    | audio => exact hg.vacant p hp

/-- A teardown that ends well makes its calls in order. -/
theorem teardown_farewell (h : s.Matched) (hrunning : s.stopped = false) :
    (teardown P.recorded).Ends (s, w) (fun _ r => ∃ f : Track → Farewell,
      (∀ t, Parting s t (f t)) ∧
      r.2.devices.calls = (farewellCalls s (fun t => made t w.devices.calls) f).reverse ++
        w.devices.calls ∧
      ∀ t p, r.1.pipelines.get t = some p →
        ∀ slot, p.outputs.state? slot ≠ some .holdingOutput) fun _ _ => True := by
  rw [ends_teardown hrunning]
  -- the renderers give back what they hold, the video first
  refine ((releaseVideo_drains h.dropTimers).and (releaseVideo_matched h.dropTimers)).imp ?_
    fun _ _ _ => trivial
  rintro _ st₁ ⟨⟨frames, hvideo⟩, hmatched⟩
  refine (releaseAudio_drains hmatched).imp ?_ fun _ _ _ => trivial
  rintro _ st₂ ⟨buffers, haudio⟩
  -- then each decoder ends, and the other track is not touched
  have hvideoExact : ∀ p, st₂.1.pipelines.get .video = some p → p.Exact [] [] := by
    rw [(haudio.other .video (by decide)).pipeline]
    exact hvideo.exact
  refine (teardownPipeline_concludes hvideoExact frames).imp ?_ fun _ _ _ => trivial
  rintro _ st₃ ⟨f, hframes, hf⟩
  have haudioExact : ∀ p, st₃.1.pipelines.get .audio = some p → p.Exact [] [] := by
    rw [(hf.other .audio (by decide)).pipeline]
    exact haudio.exact
  refine (teardownPipeline_concludes haudioExact buffers).imp ?_ fun _ _ _ => trivial
  rintro _ st₄ ⟨g, hbuffers, hg⟩
  obtain ⟨part, htold, hdeparted, hvacant⟩ := departed hvideo haudio hf hg hframes hbuffers
  -- that the timers have been dropped does not matter to what is held, nor to the calls
  have hparting (t : Track) : Parting s t (part t) := ⟨(hdeparted t).first, (hdeparted t).again⟩
  refine ⟨part, hparting, ?_, hvacant⟩
  have hpaired : st₄.1.pacer.isSome = s.pacer.isSome := htold.paired
  have hcalls : st₄.2.devices.calls = (decoderCalls s (fun t => made t w.devices.calls)
      part).reverse ++ w.devices.calls := htold.calls
  rw [stopOutputs_calls, hpaired, hcalls, farewellCalls, List.reverse_append, List.reverse_append]
  split <;> rfl

/-! ## What the calls are -/

/-- The call takes a slot back or puts it off, or it ends a device. -/
def IsFarewell : DeviceCall → Prop
  | .decoder _ _ (.releaseOutput _) refusal => refusal = none ∨ refusal = some .busy
  | .decoder _ _ .stop refusal => refusal = none
  | .decoder _ _ .release _ | .stopAudio | .stopSurface => True
  | _ => False

section Calls

variable {f : Farewell} {serial : Nat}

/-- Nothing is presented in a farewell: what is offered is offered to be released. -/
theorem Parting.release (h : Parting s t f) : ∀ o ∈ f.first ++ f.again, o.kind = .release := by
  intro o ho
  have hentry : (o.slot, o.kind) ∈ (f.first ++ f.again).map Offer.entry :=
    List.mem_map_of_mem ho
  rw [List.map_append, h.first, h.again] at hentry
  rcases List.mem_append.mp hentry with hentry | hentry
  · obtain ⟨slot, -, heq⟩ := List.mem_map.mp hentry
    exact (congrArg Prod.snd heq).symm
  · obtain ⟨entry, -, heq⟩ := List.mem_map.mp hentry
    exact (congrArg Prod.snd heq).symm

/-- An offer that releases a slot belongs to a farewell, accepted or put off. -/
theorem record_isFarewell {o : Offer} (ho : o.kind = .release) (t : Track) (serial : Nat) :
    IsFarewell (o.record t serial) := by
  obtain ⟨slot, kind, taken⟩ := o
  cases ho
  cases taken
  · exact Or.inr rfl
  · exact Or.inl rfl

/-- Offers are no stops, and no releases of a decoder. -/
theorem told_offers (offers : List Offer) (t u : Track) (serial n : Nat) {c : DecoderCall}
    (hc : c = .stop ∨ c = .release) : told u n c (offers.map (Offer.record t serial)) = 0 := by
  induction offers with
  | nil => rfl
  | cons o offers ih =>
    have hother : o.call ≠ c := by
      obtain ⟨slot, kind, taken⟩ := o
      rcases hc with rfl | rfl <;> cases kind <;> exact nofun
    rw [List.map_cons, Offer.record, told_decoder, ih, if_neg (fun h => hother h.2.2)]

/-- What is told in two parts is counted in both. -/
theorem told_append (t : Track) (n : Nat) (c : DecoderCall) (calls more : List DeviceCall) :
    told t n c (calls ++ more) = told t n c calls + told t n c more := List.countP_append

/-- The end of a decoder stops and releases this one, each once, and no other. -/
theorem told_ending (f : Farewell) (t u : Track) (serial n : Nat) {c : DecoderCall}
    (hc : c = .stop ∨ c = .release) :
    told u n c (f.ending t serial) = if t = u ∧ serial = n then 1 else 0 := by
  rw [Farewell.ending, told_append, told_offers _ _ _ _ _ hc, told_decoder, told_decoder]
  rcases hc with rfl | rfl <;> simp [told]

/-- Of the tracks that are set up each decoder is stopped and released once. -/
theorem told_farewellCalls (s : Session) (serial : Track → Nat) (f : Track → Farewell) (t : Track)
    (n : Nat) {c : DecoderCall} (hc : c = .stop ∨ c = .release) :
    told t n c (farewellCalls s serial f) =
      if s.configured.get t = true ∧ serial t = n then 1 else 0 := by
  -- only the last part of a decoder's calls ends it, and that of its own track
  have hending (u : Track) : told t n c (if s.configured.get u = true then
      (f u).ending u (serial u) else []) =
      if s.configured.get u = true ∧ u = t ∧ serial u = n then 1 else 0 := by
    split
    · next hset => simp [told_ending _ _ _ _ _ hc, hset]
    · next hset => simp [told, hset]
  have houtputs : told t n c (if s.pacer.isSome then [DeviceCall.stopAudio] else []) = 0 := by
    split <;> rfl
  have hsurface : told t n c [DeviceCall.stopSurface] = 0 := rfl
  rw [farewellCalls, decoderCalls, told_append, told_append, told_append, told_append, told_append,
    told_offers _ _ _ _ _ hc, told_offers _ _ _ _ _ hc, hending .video, hending .audio, houtputs,
    hsurface]
  cases t <;> simp

/-- Every call of a teardown takes a slot back or ends a device. -/
theorem isFarewell_of_mem {serial : Track → Nat} {f : Track → Farewell}
    (h : ∀ t, Parting s t (f t)) : ∀ c ∈ farewellCalls s serial f, IsFarewell c := by
  -- what is offered in a teardown is released, never presented
  have hrecord (t : Track) (offers : List Offer) (hoffers : ∀ o ∈ offers, o.kind = .release) :
      ∀ c ∈ offers.map (Offer.record t (serial t)), IsFarewell c := by
    intro c hc
    obtain ⟨o, ho, rfl⟩ := List.mem_map.mp hc
    exact record_isFarewell (hoffers o ho) t _
  have hfirst (t : Track) : ∀ c ∈ (f t).first.map (Offer.record t (serial t)), IsFarewell c :=
    hrecord t _ fun o ho => (h t).release o (List.mem_append_left _ ho)
  have hending (t : Track) (b : Bool) :
      ∀ c ∈ (if b = true then (f t).ending t (serial t) else []), IsFarewell c := by
    intro c hc
    split at hc
    · rcases List.mem_append.mp hc with hc | hc
      · exact hrecord t _ (fun o ho => (h t).release o (List.mem_append_right _ ho)) c hc
      · simp only [List.mem_cons, List.not_mem_nil, or_false] at hc
        rcases hc with rfl | rfl
        · rfl
        · trivial
    · exact absurd hc List.not_mem_nil
  intro c hc
  simp only [farewellCalls, decoderCalls, List.mem_append] at hc
  -- the parts of a teardown, in the order of `farewellCalls`
  rcases hc with ((((hc | hc) | hc) | hc) | hc) | hc
  · exact hfirst .video c hc
  · exact hfirst .audio c hc
  · exact hending .video _ c hc
  · exact hending .audio _ c hc
  · split at hc
    · rw [List.mem_singleton.mp hc]
      trivial
    · exact absurd hc List.not_mem_nil
  · rw [List.mem_singleton.mp hc]
    trivial

/-- The audio output is stopped once if there is audio, and the surface is stopped once. -/
theorem count_outputs (s : Session) (serial : Track → Nat) (f : Track → Farewell) :
    (farewellCalls s serial f).count .stopAudio = (if s.pacer.isSome then 1 else 0) ∧
      (farewellCalls s serial f).count .stopSurface = 1 := by
  -- the calls to decoders stop no output
  have hrecord (t : Track) (offers : List Offer) (n : Nat) {c : DeviceCall}
      (hc : c = .stopAudio ∨ c = .stopSurface) : (offers.map (Offer.record t n)).count c = 0 := by
    apply List.count_eq_zero.mpr
    intro hmem
    obtain ⟨o, -, heq⟩ := List.mem_map.mp hmem
    rcases hc with rfl | rfl <;> cases heq
  have hending (t : Track) (b : Bool) {c : DeviceCall} (hc : c = .stopAudio ∨ c = .stopSurface) :
      (if b = true then (f t).ending t (serial t) else []).count c = 0 := by
    split
    · rw [Farewell.ending, List.count_append, hrecord t _ _ hc]
      rcases hc with rfl | rfl <;> simp
    · rfl
  constructor
  · simp only [farewellCalls, decoderCalls, List.count_append, hrecord _ _ _ (Or.inl rfl),
      hending _ _ (Or.inl rfl)]
    split <;> simp
  · simp only [farewellCalls, decoderCalls, List.count_append, hrecord _ _ _ (Or.inr rfl),
      hending _ _ (Or.inr rfl)]
    split <;> simp

end Calls

/-! ## Runs -/

/-- **A teardown is orderly.** After any run that has not stopped the session, whatever the devices
answered, a teardown that ends well tells the devices `farewellCalls` and nothing else: it offers
the slots that wait in the renderers, the video ones first, then ends the decoders of the tracks
that are set up, then stops the outputs. Each stop and release is told once, and nothing is fed,
presented or written. No slot is held afterwards, no timer waits, and a second teardown does
nothing. -/
theorem teardown_in_order (P : Platform σ) (tolerance : Int) (devices : σ) (events : List (Event σ))
    (hrunning : (afterEvents P tolerance devices events).1.stopped = false)
    (r : Session × World (Recorded σ))
    (hok : teardown P.recorded (afterEvents P tolerance devices events) = .ok () r) :
    ∃ f : Track → Farewell,
      let (s, w) := afterEvents P tolerance devices events
      let serial := fun t => made t w.devices.calls
      let calls := farewellCalls s serial f
      r.2.devices.calls = calls.reverse ++ w.devices.calls ∧
      (∀ t, Parting s t (f t)) ∧
      (∀ t p, s.pipelines.get t = some p → ∀ slot,
        p.outputs.state? slot = some .holdingOutput → slot ∈ (f t).first.map (·.slot)) ∧
      (∀ c ∈ calls, IsFarewell c) ∧
      (∀ t n c, c = .stop ∨ c = .release →
        told t n c calls = if s.configured.get t = true ∧ serial t = n then 1 else 0) ∧
      calls.count .stopAudio = (if s.pacer.isSome then 1 else 0) ∧
      calls.count .stopSurface = 1 ∧
      (∀ t p, r.1.pipelines.get t = some p → ∀ slot,
        p.outputs.state? slot ≠ some .holdingOutput) ∧
      r.1.timers.entries = [] ∧
      teardown P.recorded r = .ok () r := by
  have hmatched : (afterEvents P tolerance devices events).1.Matched :=
    (afterEvents_tidy P tolerance devices events).resolve_left fun heq => by simp [hrunning] at heq
  -- for what follows the session may be any that holds what it should
  generalize afterEvents P tolerance devices events = st at *
  obtain ⟨s, w⟩ := st
  have hidle : Aside fun st : Session × World (Recorded σ) => st.1.timers.entries = [] :=
    fun _ _ _ _ _ _ _ h => h
  have hfarewell := (ends_of_ok hok).mp (teardown_farewell hmatched hrunning)
  have hempty : r.1.timers.entries = [] :=
    (ends_of_ok hok).mp (teardown_ends_aside hidle hrunning rfl)
  have hstopped : r.1.stopped = true := (ends_of_ok hok).mp (teardown_stops (s, w))
  obtain ⟨f, hparting, hcalls, hvacant⟩ := hfarewell
  refine ⟨f, hcalls, hparting, fun t p hp slot hslot => ?_, isFarewell_of_mem hparting,
    fun t n c hc => told_farewellCalls s _ f t n hc, (count_outputs s _ f).1,
    (count_outputs s _ f).2, hvacant, hempty, teardown_stopped hstopped⟩
  -- what a pipeline says is held waits in the renderer, and all that waits is offered
  have hheld : slot ∈ s.heldBy t := (hmatched.fits t p hp).held_all slot hslot
  have hslots : (f t).first.map (·.slot) = s.heldBy t := by
    have hfirst := congrArg (List.map Prod.fst) (hparting t).first
    simpa [Function.comp_def, Offer.entry] using hfirst
  rw [hslots]
  exact hheld

/-- Both decoders take a unit and hand it out again. -/
def unitsHeld : List (Event Simulation) :=
  [.message (.still 0) (.setFormat 0 (.video "video/avc" 64 64)),
    .message (.still 0) (.setFormat 1 (.audio "audio/raw" 48000 2)),
    .message (.still 0) (.inputsAvailable 0 [3]), .message (.still 0) (.inputsAvailable 1 [3]),
    .message (.still 0) (.queueUnit 0 ⟨1000, [7]⟩),
    .message (.still 0) (.queueUnit 1 ⟨0, [1, 2, 3, 4]⟩),
    .message (.still 0) (.outputReady 0 0 1000 [7]),
    .message (.still 0) (.outputReady 1 0 0 [1, 2, 3, 4])]

/-- The decoders are busy when the first of the outputs comes back. -/
def bothHolding : Session × World (Recorded Simulation) :=
  afterEvents (Simulation.platform {}) 0 { faults := { deferredReturns := 1 } } unitsHeld

/-- A frame and a buffer wait in the renderers, and are given back before the decoders end. -/
theorem bothHolding_torn_down_in_order : bothHolding.1.stopped = false ∧
    ∃ r, teardown (Simulation.platform {}).recorded bothHolding = .ok () r ∧
      ∃ f : Track → Farewell,
        r.2.devices.calls = (farewellCalls bothHolding.1 (fun _ => 1) f).reverse ++
          bothHolding.2.devices.calls ∧
        (f .video).first.map Offer.entry = [(0, .release)] ∧
        (f .audio).first.map Offer.entry = [(0, .release)] ∧
        (∀ t, told t 1 .stop (farewellCalls bothHolding.1 (fun _ => 1) f) = 1) ∧
        r.1.timers.entries = [] := by
  have hrunning : bothHolding.1.stopped = false := by decide +kernel
  have hanswer : (teardown (Simulation.platform {}).recorded).answer? bothHolding = some () := by
    decide +kernel
  have hserial : (fun t => made t bothHolding.2.devices.calls) = fun _ => 1 := by
    funext t
    cases t <;> decide +kernel
  have hset (t : Track) : bothHolding.1.configured.get t = true := by cases t <;> decide +kernel
  have hvideo : bothHolding.1.heldBy .video = [0] := by decide +kernel
  have haudio : bothHolding.1.heldBy .audio = [0] := by decide +kernel
  have horder := teardown_in_order (Simulation.platform {}) 0 { faults := { deferredReturns := 1 } }
    unitsHeld
  rw [← bothHolding] at horder
  -- the session is not to be run again by what follows
  generalize bothHolding = st at *
  obtain ⟨r, hok⟩ := answer?_eq_some_iff.mp hanswer
  obtain ⟨f, hcalls, hparting, -, -, htold, -, -, -, hempty, -⟩ := horder hrunning r hok
  rw [hserial] at hcalls
  refine ⟨hrunning, r, hok, f, hcalls, ?_, ?_, fun t => ?_, hempty⟩
  · rw [(hparting .video).first, hvideo]
    rfl
  · rw [(hparting .audio).first, haudio]
    rfl
  · have hstops := htold t 1 .stop (Or.inl rfl)
    rw [hserial] at hstops
    rw [hstops, if_pos ⟨hset t, rfl⟩]

end Session

end Playout
