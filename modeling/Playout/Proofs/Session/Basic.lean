import Playout.Proofs.Action
import Playout.Session.Basic

/-!
# Where the parts of an operation end

One equivalence for each part that the operations of a session are built from. Together with
those of an action they take an operation apart, down to what is asked of its pipelines and
renderers.
-/

namespace Playout

namespace Track

/-- Tracks with the same number are the same. -/
theorem number_injective {t u : Track} (h : t.number = u.number) : t = u := by
  cases t <;> cases u <;> first | rfl | cases h

theorem eq_number_of_ofNumber? {n : Nat} {t : Track} (h : ofNumber? n = some t) : n = t.number := by
  unfold ofNumber? at h
  split at h <;> cases h <;> rfl

/-- The number of a track names it. -/
theorem ofNumber?_number (t : Track) : ofNumber? t.number = some t := by
  cases t <;> rfl

end Track

/-- Putting back what is there changes nothing. -/
theorem PerTrack.set_get_self {α : Type} (tracks : PerTrack α) (t : Track) :
    tracks.set t (tracks.get t) = tracks := by
  cases t <;> rfl

/-- A track that is set up goes on: the same tracks are set up. -/
theorem PerTrack.isSome_renew {α : Type} {tracks : PerTrack (Option α)} {t : Track} {a : α}
    (h : tracks.get t = some a) (a' : α) (u : Track) :
    ((tracks.set t (some a')).get u).isSome = (tracks.get u).isSome := by
  by_cases heq : u = t
  · rw [heq, get_set_self, h]
    rfl
  · rw [tracks.get_set_of_ne heq]

namespace Session

open Playout.Action

variable {σ α : Type} {E : Fault → Session × World σ → Prop}

section Changes

variable {Q : Unit → Session × World σ → Prop}

@[simp] theorem ends_update (f : Session → Session) (st : Session × World σ) :
    (update f).Ends st Q E ↔ Q () (f st.1, st.2) := Iff.rfl

@[simp] theorem ends_publish (st : Session × World σ) :
    publish.Ends st Q E ↔ Q () ({ st.1 with published := st.1.counts }, st.2) := Iff.rfl

@[simp] theorem ends_schedule (now : Int) (delay : Nat) (m : Message) (st : Session × World σ) :
    (schedule now delay m).Ends st Q E ↔
      Q () ({ st.1 with timers := st.1.timers.schedule (now + delay) m }, st.2) := Iff.rfl

@[simp] theorem ends_armVideo (now : Int) (delay : Nat) (st : Session × World σ) :
    (armVideo now delay).Ends st Q E ↔
      Q () ({ st.1 with
        generation := st.1.generation + 1
        timers := st.1.timers.schedule (now + delay) (.renderVideo (st.1.generation + 1)) },
        st.2) := Iff.rfl

end Changes

section Parts

variable {Q : α → Session × World σ → Prop} {st : Session × World σ}

@[simp] theorem ends_onDevices (f : σ → α × σ) :
    (onDevices f).Ends st Q E ↔
      Q (f st.2.devices).1 (st.1, { st.2 with devices := (f st.2.devices).2 }) := by
  obtain ⟨s, w⟩ := st
  rfl

@[simp] theorem ends_onPipeline (t : Track) (p : Pipeline) (a : Pipeline.Step (World σ) α) :
    (onPipeline t p a).Ends st Q E ↔
      a.Ends (p, st.2)
        (fun x r => Q x ({ st.1 with pipelines := st.1.pipelines.set t (some r.1) }, r.2))
        (fun e r => E e ({ st.1 with pipelines := st.1.pipelines.set t (some r.1) }, r.2)) :=
  ends_focus _ _ _

@[simp] theorem ends_onVideo (p : Pipeline) (a : Scheduler.Step (Pipeline × World σ) α) :
    (onVideo p a).Ends st Q E ↔
      a.Ends (st.1.scheduler, p, st.2)
        (fun x r => Q x ({ st.1 with
          scheduler := r.1, pipelines := st.1.pipelines.set .video (some r.2.1) }, r.2.2))
        (fun e r => E e ({ st.1 with
          scheduler := r.1, pipelines := st.1.pipelines.set .video (some r.2.1) }, r.2.2)) :=
  ends_focus _ _ _

@[simp] theorem ends_onAudio (pacer : Pacer) (p : Pipeline)
    (a : Pacer.Step (Pipeline × World σ) α) :
    (onAudio pacer p a).Ends st Q E ↔
      a.Ends (pacer, p, st.2)
        (fun x r => Q x ({ st.1 with
          pacer := some r.1, pipelines := st.1.pipelines.set .audio (some r.2.1) }, r.2.2))
        (fun e r => E e ({ st.1 with
          pacer := some r.1, pipelines := st.1.pipelines.set .audio (some r.2.1) }, r.2.2)) :=
  ends_focus _ _ _

end Parts

/-- A track that does not exist is a fault of the message. -/
theorem ends_trackOf {Q : Track → Session × World σ → Prop} {st : Session × World σ}
    (track : Nat) (known : ∀ t, Track.ofNumber? track = some t → Q t st)
    (unknown : Track.ofNumber? track = none → E (.unknownTrack track) st) :
    (trackOf track).Ends st Q E := by
  unfold trackOf
  cases h : Track.ofNumber? track with
  | none => exact unknown h
  | some t => exact known t h

/-- The number of a track that exists is looked up without fault. -/
theorem ends_trackOf_some {Q : Track → Session × World σ → Prop} {st : Session × World σ}
    {track : Nat} {t : Track} (h : Track.ofNumber? track = some t) :
    (trackOf track).Ends st Q E ↔ Q t st := by
  unfold trackOf
  rw [h]
  rfl

/-- An action on the pipeline of a track that is set up, and the two faults of a message that
names another track. -/
theorem ends_withPipeline {P : Platform σ} {Q : α → Session × World σ → Prop}
    {st : Session × World σ} (track : Nat)
    (a : DecoderDevice (World σ) → Pipeline.Step (World σ) α)
    (run : ∀ t p, Track.ofNumber? track = some t → st.1.pipelines.get t = some p →
      (onPipeline t p (a (P.decoderDevice t))).Ends st Q E)
    (unknown : Track.ofNumber? track = none → E (.unknownTrack track) st)
    (unset : ∀ t, Track.ofNumber? track = some t → st.1.pipelines.get t = none →
      E (.notConfigured track) st) :
    (withPipeline P track a).Ends st Q E := by
  unfold withPipeline
  rw [ends_bind]
  refine ends_trackOf track (fun t ht => ?_) unknown
  simp only [ends_bind, ends_get]
  cases hp : st.1.pipelines.get t with
  | none => exact unset t ht hp
  | some p => exact run t p ht hp

/-- The same for a track that exists. -/
theorem ends_withPipeline_number {P : Platform σ} {Q : α → Session × World σ → Prop}
    {st : Session × World σ} (t : Track)
    (a : DecoderDevice (World σ) → Pipeline.Step (World σ) α)
    (run : ∀ p, st.1.pipelines.get t = some p →
      (onPipeline t p (a (P.decoderDevice t))).Ends st Q E)
    (unset : st.1.pipelines.get t = none → E (.notConfigured t.number) st) :
    (withPipeline P t.number a).Ends st Q E := by
  have hself {u : Track} (hu : Track.ofNumber? t.number = some u) : u = t := by
    rw [Track.ofNumber?_number] at hu
    exact (Option.some.inj hu).symm
  -- the case of a track that does not exist cannot arise
  refine ends_withPipeline t.number a (fun u p hu hp => ?_) (fun hnone => ?_) fun u hu hnone => ?_
  · obtain rfl := hself hu
    exact run p hp
  · rw [Track.ofNumber?_number] at hnone
    cases hnone
  · obtain rfl := hself hu
    exact unset hnone

end Session

end Playout
