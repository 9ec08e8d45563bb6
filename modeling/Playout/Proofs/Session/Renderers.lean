import Playout.Proofs.Session.Messages

/-!
# What the renderers hold

`Holds Fits s` says that what each renderer of a session holds fits the pipeline behind it. What
`Fits` says is up to those who use it: that the slots can be returned, or that they are all that
are out.
-/

namespace Playout.Session

variable {Fits : Pipeline → List Nat → Prop} {s s' : Session} {t : Track} {p p' : Pipeline}
  {pacer : Pacer}

/-- The output slots that the renderer of a track holds. -/
def heldBy (s : Session) : Track → List Nat
  | .video => s.scheduler.slots
  | .audio => (s.pacer.map (·.slots)).getD []

/-- What a renderer holds fits its pipeline, and for a track without a pipeline nothing is held. -/
structure Holds (Fits : Pipeline → List Nat → Prop) (s : Session) : Prop where
  fits : ∀ t p, s.pipelines.get t = some p → Fits p (s.heldBy t)
  idle : ∀ t, s.pipelines.get t = none → s.heldBy t = []
  paired : s.pacer.isSome = s.pipelines.audio.isSome

namespace Holds

variable (h : s.Holds Fits)
include h

/-- What the pacer holds fits the pipeline of the audio. -/
theorem fits_pacer (hpacer : s.pacer = some pacer) (hp : s.pipelines.get .audio = some p) :
    Fits p pacer.slots := by
  have hheld : s.heldBy .audio = pacer.slots := by simp [heldBy, hpacer]
  rw [← hheld]
  exact h.fits .audio p hp

/-- An audio pipeline comes with a pacer. -/
theorem pacer_some (hp : s.pipelines.get .audio = some p) : ∃ pacer, s.pacer = some pacer := by
  apply Option.isSome_iff_exists.mp
  rw [h.paired, show s.pipelines.audio = some p from hp]
  rfl

/-- What the renderers and the pipelines do not know does not matter. -/
theorem frame (hpipelines : s'.pipelines = s.pipelines) (hscheduler : s'.scheduler = s.scheduler)
    (hpacer : s'.pacer = s.pacer) : s'.Holds Fits := by
  have hheld : s'.heldBy = s.heldBy := by
    funext t
    cases t <;> simp [heldBy, hscheduler, hpacer]
  refine ⟨?_, ?_, ?_⟩
  · rw [hpipelines, hheld]
    exact h.fits
  · rw [hpipelines, hheld]
    exact h.idle
  · rw [hpipelines, hpacer]
    exact h.paired

/-- One track gets another pipeline, and its renderer other slots. -/
theorem replace (hset : s'.pipelines = s.pipelines.set t (some p'))
    (hother : ∀ u ≠ t, s'.heldBy u = s.heldBy u) (hfits : Fits p' (s'.heldBy t))
    (hpaired : s'.pacer.isSome = s'.pipelines.audio.isSome) : s'.Holds Fits := by
  have hself : s'.pipelines.get t = some p' := by rw [hset, PerTrack.get_set_self]
  have hget {u : Track} (hu : u ≠ t) : s'.pipelines.get u = s.pipelines.get u := by
    rw [hset, s.pipelines.get_set_of_ne hu]
  refine ⟨fun u q hq => ?_, fun u hu => ?_, hpaired⟩
  -- the track that is replaced has its own proof, and the other is as it was
  · by_cases heq : u = t
    · subst heq
      rw [hself] at hq
      cases hq
      exact hfits
    · rw [hget heq] at hq
      rw [hother u heq]
      exact h.fits u q hq
  · by_cases heq : u = t
    · subst heq
      rw [hself] at hu
      cases hu
    · rw [hget heq] at hu
      rw [hother u heq]
      exact h.idle u hu

/-- A pipeline may go on, if it fits what its renderer holds. -/
theorem withTrack (hp : s.pipelines.get t = some p) (hfits : Fits p' (s.heldBy t)) :
    (s.withTrack t p').Holds Fits := by
  refine h.replace rfl (fun u _ => ?_) ?_ ?_
  · cases u <;> rfl
  · cases t <;> exact hfits
  · exact h.paired.trans (PerTrack.isSome_renew hp p' .audio).symm

/-- Scheduler and pipeline of the video may go on together, if they fit. -/
theorem withVideo {v : Scheduler} (hp : s.pipelines.get .video = some p) (hfits : Fits p' v.slots) :
    (s.withVideo v p').Holds Fits := by
  refine h.replace (t := .video) rfl (fun u hu => ?_) hfits ?_
  · cases u
    · exact absurd rfl hu
    · rfl
  · exact h.paired.trans (PerTrack.isSome_renew hp p' .audio).symm

/-- Pacer and pipeline of the audio may go on together, if they fit. -/
theorem withAudio (hfits : Fits p' pacer.slots) : (s.withAudio pacer p').Holds Fits := by
  refine h.replace (t := .audio) rfl (fun u hu => ?_) hfits rfl
  cases u
  · rfl
  · exact absurd rfl hu

end Holds

end Playout.Session
