import Playout.Proofs.Decode.Retry
import Playout.Proofs.Session.Handling

/-!
# Which wake-ups a session waits for

A session posts three kinds of messages to itself, and remembers for each that it is on its way:
the renderer of the audio knows that a push has been asked for, the scheduler for what time the
video wake-up is armed, and the session for which track a retry waits. `Expecting waiting s` says
that these are right when the messages in `waiting` are still to come:

    AudioAwaited    audio that waits has been asked for, by one push
    VideoAwaited    the wake-up is armed for the front frame, by one message of this generation
    RetryAwaited    what a decoder was too busy for is known, and each retry posted once

A message that is taken from the timers counts until it has been handled. A message of another kind
may come at any time; a wake-up from outside would not be accounted for.
-/

namespace Playout

open Playout.Action

namespace Session

variable {σ : Type} {P : Platform σ} {m : Message} {s : Session} {w : World σ}
  {t : Track} {p p' : Pipeline} {waiting waiting' : List Message}

/-- Waiting audio has been asked for, by one push that is still to come. -/
structure AudioAwaited (waiting : List Message) (pacer : Option Pacer) (isSet : Bool) : Prop where
  paired : pacer.isSome = isSet
  asking : ∀ a, pacer = some a → a.Asking
  once : waiting.count .pushAudio = pacer.elim 0 (·.pushPending.toNat)

/-- The wake-up of this generation is still to come, once, if and only if a frame waits. -/
structure VideoAwaited (waiting : List Message) (scheduler : Scheduler) (generation : Nat)
    (isSet : Bool) : Prop where
  idle : isSet = false → scheduler.queue = []
  armed : scheduler.Armed
  once : waiting.count (.renderVideo generation) = if scheduler.queue = [] then 0 else 1
  past : ∀ g, .renderVideo g ∈ waiting → g ≤ generation

/-- What a decoder was too busy for is known, and the retries that are posted are still to come. -/
structure RetryAwaited (waiting : List Message) (pipelines : PerTrack (Option Pipeline))
    (armed : PerTrack Bool) : Prop where
  heeded : ∀ t p, pipelines.get t = some p → p.Heeded (armed.get t)
  once : ∀ t : Track, waiting.count (.retryDecoder t.number) = (armed.get t).toNat

/-- The session knows which messages to itself are still to come. -/
structure Expecting (waiting : List Message) (s : Session) : Prop where
  audio : AudioAwaited waiting s.pacer (s.pipelines.get .audio).isSome
  video : VideoAwaited waiting s.scheduler s.generation (s.pipelines.get .video).isSome
  retry : RetryAwaited waiting s.pipelines s.retryArmed

/-! ## Messages that come and go -/

namespace AudioAwaited

variable {pacer : Option Pacer} {isSet : Bool}

/-- A message that asks for no push makes no difference to the audio. -/
theorem cons_iff (hm : m ≠ .pushAudio) :
    AudioAwaited (m :: waiting) pacer isSet ↔ AudioAwaited waiting pacer isSet := by
  have hcount : (m :: waiting).count .pushAudio = waiting.count .pushAudio :=
    List.count_cons_of_ne hm
  exact ⟨fun h => ⟨h.paired, h.asking, hcount ▸ h.once⟩,
    fun h => ⟨h.paired, h.asking, hcount.trans h.once⟩⟩

/-- Only how often a message is still to come counts, not when. -/
theorem perm (h : AudioAwaited waiting pacer isSet) (hperm : waiting.Perm waiting') :
    AudioAwaited waiting' pacer isSet :=
  ⟨h.paired, h.asking, (hperm.count_eq _).symm.trans h.once⟩

end AudioAwaited

namespace VideoAwaited

variable {scheduler scheduler' : Scheduler} {generation : Nat} {isSet : Bool}

/-- A message that is no wake-up of the video makes no difference to the frames. -/
theorem cons_iff (hm : ∀ g, m ≠ .renderVideo g) :
    VideoAwaited (m :: waiting) scheduler generation isSet ↔
      VideoAwaited waiting scheduler generation isSet := by
  have hcount : (m :: waiting).count (.renderVideo generation) =
      waiting.count (.renderVideo generation) :=
    List.count_cons_of_ne (hm generation)
  refine ⟨fun h => ⟨h.idle, h.armed, hcount ▸ h.once, fun g hg => ?_⟩,
    fun h => ⟨h.idle, h.armed, hcount.trans h.once, fun g hg => ?_⟩⟩
  · exact h.past g (List.mem_cons_of_mem _ hg)
  · rcases List.mem_cons.mp hg with heq | hold
    · exact absurd heq.symm (hm g)
    · exact h.past g hold

theorem perm (h : VideoAwaited waiting scheduler generation isSet)
    (hperm : waiting.Perm waiting') : VideoAwaited waiting' scheduler generation isSet :=
  ⟨h.idle, h.armed, (hperm.count_eq _).symm.trans h.once,
    fun g hg => h.past g (hperm.mem_iff.mpr hg)⟩

/-- A new wake-up replaces those before it. -/
theorem arm (hpast : ∀ g, .renderVideo g ∈ waiting → g ≤ generation)
    (harmed : scheduler.Armed) (hqueue : scheduler.queue ≠ []) :
    VideoAwaited (.renderVideo (generation + 1) :: waiting) scheduler (generation + 1) true := by
  -- no wake-up that is still to come is of the new generation
  have hfresh : waiting.count (.renderVideo (generation + 1)) = 0 := by
    rw [List.count_eq_zero]
    intro hmem
    exact absurd (hpast _ hmem) (Nat.not_succ_le_self _)
  refine ⟨nofun, harmed, ?_, fun g hg => ?_⟩
  · rw [List.count_cons_self, hfresh, if_neg hqueue]
  · rcases List.mem_cons.mp hg with heq | hold
    · cases heq
      exact Nat.le_refl _
    · exact Nat.le_succ_of_le (hpast g hold)

/-- While the wake-up of this generation is in hand a frame waits, and no other one is to come. -/
theorem in_hand (h : VideoAwaited (.renderVideo generation :: waiting) scheduler generation isSet) :
    scheduler.queue ≠ [] ∧ waiting.count (.renderVideo generation) = 0 := by
  have honce := h.once
  rw [List.count_cons_self] at honce
  split at honce
  · cases honce
  · next hqueue => exact ⟨hqueue, Nat.succ.inj honce⟩

end VideoAwaited

namespace RetryAwaited

variable {pipelines pipelines' : PerTrack (Option Pipeline)} {armed : PerTrack Bool}

/-- A message that asks for no retry makes no difference to the decoders. -/
theorem cons_iff (hm : ∀ t : Track, m ≠ .retryDecoder t.number) :
    RetryAwaited (m :: waiting) pipelines armed ↔ RetryAwaited waiting pipelines armed := by
  have hcount (t : Track) : (m :: waiting).count (.retryDecoder t.number) =
      waiting.count (.retryDecoder t.number) :=
    List.count_cons_of_ne (hm t)
  exact ⟨fun h => ⟨h.heeded, fun t => hcount t ▸ h.once t⟩,
    fun h => ⟨h.heeded, fun t => (hcount t).trans (h.once t)⟩⟩

theorem perm (h : RetryAwaited waiting pipelines armed) (hperm : waiting.Perm waiting') :
    RetryAwaited waiting' pipelines armed :=
  ⟨h.heeded, fun t => (hperm.count_eq _).symm.trans (h.once t)⟩

/-- A track gets another pipeline. -/
theorem renew (h : RetryAwaited waiting pipelines armed) (hp' : p'.Heeded (armed.get t)) :
    RetryAwaited waiting (pipelines.set t (some p')) armed := by
  refine ⟨fun u q hq => ?_, h.once⟩
  by_cases heq : u = t
  · subst heq
    rw [PerTrack.get_set_self] at hq
    cases hq
    exact hp'
  · rw [pipelines.get_set_of_ne heq] at hq
    exact h.heeded u q hq

/-- The retry of a track is posted. -/
theorem arm (h : RetryAwaited waiting pipelines armed) (hunarmed : armed.get t = false) :
    RetryAwaited (.retryDecoder t.number :: waiting) pipelines (armed.set t true) := by
  refine ⟨fun u q hq => ?_, fun u => ?_⟩
  -- the retry of `t` is posted, and the other track is as it was
  · by_cases heq : u = t
    · subst heq
      rw [PerTrack.get_set_self]
      exact .of_armed q
    · rw [armed.get_set_of_ne heq]
      exact h.heeded u q hq
  · by_cases heq : u = t
    · subst heq
      rw [List.count_cons_self, h.once, hunarmed, PerTrack.get_set_self]
      rfl
    · have hne : Message.retryDecoder t.number ≠ .retryDecoder u.number := fun hnumber =>
        heq (Track.number_injective (Message.retryDecoder.inj hnumber)).symm
      rw [List.count_cons_of_ne hne, h.once, armed.get_set_of_ne heq]

/-- The retry of a track has come, and its pipeline has been seen to. -/
theorem disarm (h : RetryAwaited (.retryDecoder t.number :: waiting) pipelines armed)
    (hother : ∀ u ≠ t, pipelines'.get u = pipelines.get u)
    (hself : ∀ p, pipelines'.get t = some p → p.Heeded false) :
    RetryAwaited waiting pipelines' (armed.set t false) := by
  refine ⟨fun u q hq => ?_, fun u => ?_⟩
  · by_cases heq : u = t
    · subst heq
      rw [PerTrack.get_set_self]
      exact hself q hq
    · rw [armed.get_set_of_ne heq]
      rw [hother u heq] at hq
      exact h.heeded u q hq
  · have honce := h.once u
    by_cases heq : u = t
    · subst heq
      rw [List.count_cons_self] at honce
      -- a retry is posted once, and it is the one in hand, so no other is to come
      have hle := Bool.toNat_le (armed.get u)
      rw [PerTrack.get_set_self, Bool.toNat_false]
      omega
    · have hne : Message.retryDecoder t.number ≠ .retryDecoder u.number := fun hnumber =>
        heq (Track.number_injective (Message.retryDecoder.inj hnumber)).symm
      rw [List.count_cons_of_ne hne] at honce
      rw [honce, armed.get_set_of_ne heq]

end RetryAwaited

namespace Expecting

/-- A message from outside is not one that the session waits for. -/
theorem drop (h : Expecting (m :: waiting) s) (hm : ¬ m.IsWakeUp) : Expecting waiting s := by
  have hne {n : Message} (hn : n.IsWakeUp) : m ≠ n := fun heq => hm (heq ▸ hn)
  exact ⟨(AudioAwaited.cons_iff (hne trivial)).mp h.audio,
    (VideoAwaited.cons_iff fun _ => hne trivial).mp h.video,
    (RetryAwaited.cons_iff fun _ => hne trivial).mp h.retry⟩

/-- A message from outside may be to come as well. -/
theorem keep (h : Expecting waiting s) (hm : ¬ m.IsWakeUp) : Expecting (m :: waiting) s := by
  have hne {n : Message} (hn : n.IsWakeUp) : m ≠ n := fun heq => hm (heq ▸ hn)
  exact ⟨(AudioAwaited.cons_iff (hne trivial)).mpr h.audio,
    (VideoAwaited.cons_iff fun _ => hne trivial).mpr h.video,
    (RetryAwaited.cons_iff fun _ => hne trivial).mpr h.retry⟩

theorem perm (h : Expecting waiting s) (hperm : waiting.Perm waiting') : Expecting waiting' s :=
  ⟨h.audio.perm hperm, h.video.perm hperm, h.retry.perm hperm⟩

end Expecting

/-- The pipeline of a track goes on. -/
theorem Expecting.withTrack (h : Expecting waiting s) (hp : s.pipelines.get t = some p)
    (hp' : p'.Heeded (s.retryArmed.get t)) : Expecting waiting (s.withTrack t p') := by
  refine ⟨?_, ?_, h.retry.renew hp'⟩
  · rw [Session.withTrack, PerTrack.isSome_renew hp]
    exact h.audio
  · rw [Session.withTrack, PerTrack.isSome_renew hp]
    exact h.video

end Session

end Playout
