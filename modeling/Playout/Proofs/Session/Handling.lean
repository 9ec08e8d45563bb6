import Playout.Proofs.Session.Messages
import Playout.Session.Run

/-!
# How a session goes through its messages

`handle`, `handleAll`, `teardown` and `run` are opened here, once. What holds of a session after
every message follows from what its dispatch does (`ends_handle`), and what holds after many from
that of one (`handleAll_ends`). A teardown stops the session, wherever it breaks off.
-/

namespace Playout

/-- The messages that a session posts to itself. -/
def Message.IsWakeUp : Message → Prop
  | .pushAudio | .retryDecoder _ | .renderVideo _ => True
  | _ => False

namespace Session

open Playout.Action

variable {σ : Type} {P : Platform σ} {now : Readings} {time : Int}
  {I : Session × World σ → Prop}

/-! ## Teardown -/

/-- Stopped and without timers, and still holding what it held. -/
def dropTimers (s : Session) : Session :=
  { s with stopped := true, timers := s.timers.clear, retryArmed := .both false }

/-- After its decoders a session stops its outputs, and shows its counts. -/
def stopOutputs (P : Platform σ) (st : Session × World σ) : Session × World σ :=
  ({ st.1 with published := st.1.counts },
    { st.2 with
      devices := P.stopSurface
        (if st.1.pacer.isSome then P.audio.stop st.2.devices else st.2.devices) })

/-- Each part of a teardown starts where the one before it ended well, and a fault skips all that
follow. -/
theorem ends_teardown {s : Session} {w : World σ} {Q : Unit → Session × World σ → Prop}
    {E : Fault → Session × World σ → Prop} (hrunning : s.stopped = false) :
    (teardown P).Ends (s, w) Q E ↔ (releaseVideo P).Ends (s.dropTimers, w)
      (fun _ st => (releaseAudio P).Ends st
        (fun _ st => (teardownPipeline P .video).Ends st
          (fun _ st => (teardownPipeline P .audio).Ends st
            (fun _ st => Q () (stopOutputs P st)) E) E) E) E := by
  -- whether there is audio to be stopped is asked once, at the end
  have houtputs (st : Session × World σ) :
      (if st.1.pacer.isSome = true then
        Q () ({ st.1 with published := st.1.counts },
          { st.2 with devices := P.stopSurface (P.audio.stop st.2.devices) })
      else Q () ({ st.1 with published := st.1.counts },
        { st.2 with devices := P.stopSurface st.2.devices })) ↔ Q () (stopOutputs P st) := by
    unfold stopOutputs
    split <;> rfl
  dsimp only at houtputs
  simp only [teardown, ends_bind, ends_get, ends_ite, ends_update, ends_onDevices, ends_publish,
    hrunning, Bool.false_eq_true, if_false, houtputs]
  rfl

/-- `I` is not about the renderers, the pipelines and what the world knows of them. -/
def Aside (I : Session × World σ → Prop) : Prop :=
  ∀ s w scheduler pacer pipelines published w', I (s, w) →
    I ({ s with scheduler, pacer, pipelines, published }, w')

/-- Giving the frames back touches renderers, pipelines and the world only. -/
theorem releaseVideo_keeps (hI : Aside I) : (releaseVideo P).Keeps I := by
  rintro ⟨s, w⟩ h
  exact ends_releaseVideo (fun _ => h) fun _ _ =>
    ends_of_forall (fun _ _ => hI _ _ _ _ _ _ _ h) fun _ _ => hI _ _ _ _ _ _ _ h

/-- Giving the audio back touches renderers, pipelines and the world only. -/
theorem releaseAudio_keeps (hI : Aside I) : (releaseAudio P).Keeps I := by
  rintro ⟨s, w⟩ h
  exact ends_releaseAudio (fun _ => h) fun _ _ _ _ =>
    ends_of_forall (fun _ _ => hI _ _ _ _ _ _ _ h) fun _ _ => hI _ _ _ _ _ _ _ h

/-- Tearing a pipeline down touches pipelines and the world only. -/
theorem teardownPipeline_keeps (hI : Aside I) (t : Track) : (teardownPipeline P t).Keeps I := by
  rintro ⟨s, w⟩ h
  exact ends_teardownPipeline (fun _ => h) fun _ _ =>
    ends_of_forall (fun _ _ => hI _ _ _ _ _ _ _ h) fun _ _ => hI _ _ _ _ _ _ _ h

/-- What holds when the timers are dropped holds in the end. -/
theorem teardown_ends_aside (hI : Aside I) {s : Session} {w : World σ}
    (hrunning : s.stopped = false) (h : I (s.dropTimers, w)) :
    (teardown P).Ends (s, w) (fun _ t => I t) fun _ t => I t := by
  rw [ends_teardown hrunning]
  refine (releaseVideo_keeps hI).ends h (fun _ _ h => ?_) fun _ _ h => h
  refine (releaseAudio_keeps hI).ends h (fun _ _ h => ?_) fun _ _ h => h
  refine (teardownPipeline_keeps hI .video).ends h (fun _ _ h => ?_) fun _ _ h => h
  exact (teardownPipeline_keeps hI .audio).ends h (fun _ _ h => hI _ _ _ _ _ _ _ h) fun _ _ h => h

/-- There is nothing more to be torn down in a session that has stopped. -/
theorem ends_teardown_stopped {st : Session × World σ} {Q : Unit → Session × World σ → Prop}
    {E : Fault → Session × World σ → Prop} (hstopped : st.1.stopped = true) :
    (teardown P).Ends st Q E ↔ Q () st := by
  simp only [teardown, ends_bind, ends_get, ends_ite, hstopped, if_true, ends_pure]

/-- A teardown of a session that has stopped leaves it as it is. -/
theorem teardown_stopped {st : Session × World σ} (hstopped : st.1.stopped = true) :
    teardown P st = .ok () st :=
  ends_eq_iff.mp ((ends_teardown_stopped hstopped).mpr ⟨rfl, rfl⟩)

/-- A teardown stops the session, also one that breaks off. -/
theorem teardown_stops (st : Session × World σ) :
    (teardown P).Ends st (fun _ t => t.1.stopped = true) fun _ t => t.1.stopped = true := by
  obtain ⟨s, w⟩ := st
  cases hstopped : s.stopped with
  | true => exact (ends_teardown_stopped hstopped).mpr hstopped
  | false =>
    have haside : Aside fun st : Session × World σ => st.1.stopped = true :=
      fun _ _ _ _ _ _ _ h => h
    exact teardown_ends_aside haside hstopped rfl

/-! ## One message -/

/-- A session that has stopped does nothing. -/
theorem ends_handle_stopped {m : Message} {st : Session × World σ}
    {Q : Unit → Session × World σ → Prop} {E : Fault → Session × World σ → Prop}
    (hstopped : st.1.stopped = true) : (handle P now m).Ends st Q E ↔ Q () st := by
  simp only [handle, ends_bind, ends_get, ends_ite, hstopped, if_true, ends_pure]

/-- A message to a session that has stopped leaves it as it is. -/
theorem handle_stopped {m : Message} {st : Session × World σ} (hstopped : st.1.stopped = true) :
    handle P now m st = .ok () st :=
  ends_eq_iff.mp ((ends_handle_stopped hstopped).mpr ⟨rfl, rfl⟩)

/-- The counts are shown to others. -/
def shown (st : Session × World σ) : Session × World σ :=
  ({ st.1 with published := st.1.counts }, st.2)

/-- What follows on a message leads to `K`: the retries, if the session runs, and then its counts
are shown. -/
def Concludes (now : Readings) (K : Session × World σ → Prop) (st : Session × World σ) :
    Prop :=
  if st.1.stopped = true then K (shown st)
  else (scheduleRetry now.retry.video .video).Ends st
    (fun _ st => (scheduleRetry now.retry.audio .audio).Ends st (fun _ st => K (shown st))
      fun _ _ => False)
    fun _ _ => False

/-- Asking for a retry does not fail. -/
theorem ends_scheduleRetry_iff (t : Track) {st : Session × World σ}
    {E : Fault → Session × World σ → Prop} :
    (scheduleRetry time t).Ends st (fun _ st => I st) E ↔
      I ((scheduleRetry time t).stateAfter st) := by
  have hends : (scheduleRetry time t).Ends st (fun _ _ => True) fun _ _ => False :=
    ends_scheduleRetry (fun _ => trivial) (fun _ _ _ => trivial) fun _ _ _ _ => trivial
  unfold Ends at hends
  split at hends
  · next h => rw [ends_of_ok h, Action.stateAfter, h]
  · exact hends.elim

/-- The session after the retries that follow on a message. -/
def retried (now : Readings) (st : Session × World σ) : Session × World σ :=
  (scheduleRetry now.retry.audio .audio).stateAfter
    ((scheduleRetry now.retry.video .video).stateAfter st)

/-- Retries do not fail, so what follows on a message leads to one state. -/
theorem concludes_iff {K : Session × World σ → Prop} {st : Session × World σ} :
    Concludes now K st ↔ K (shown (if st.1.stopped = true then st else retried now st)) := by
  unfold Concludes
  split
  · exact Iff.rfl
  · rw [ends_scheduleRetry_iff (I := fun st =>
      (scheduleRetry now.retry.audio .audio).Ends st (fun _ st => K (shown st))
        fun _ _ => False)]
    exact ends_scheduleRetry_iff (I := fun st => K (shown st)) .audio

/-- Where every state will do it does not matter how a message concludes. -/
theorem concludes_of_forall {K : Session × World σ → Prop} {st : Session × World σ}
    (h : ∀ t, K (shown t)) : Concludes now K st :=
  concludes_iff.mpr (h _)

/-- A message is dispatched, what follows on it is done, and a fatal fault leads to a teardown. -/
theorem ends_handle_of {m : Message} {st : Session × World σ} {Q : Unit → Session × World σ → Prop}
    {E : Fault → Session × World σ → Prop} (hrunning : st.1.stopped = false)
    (h : (dispatch P now m).Ends st (fun _ t => Concludes now (Q ()) t) fun e t =>
      Concludes now (fun t => if e.isFatal = true then
        (teardown P).Ends t (fun _ t => E e t) fun _ t => E e t else E e t) t) :
    (handle P now m).Ends st Q E := by
  simp only [handle, ends_bind, ends_get, ends_ite, ends_pure, ends_attempt, ends_publish,
    ends_throw, hrunning, Bool.false_eq_true, if_false]
  -- after a dispatch that went well, and after one that failed, the same follows; then a fatal
  -- fault leads on to the teardown
  refine h.imp (fun _ t ht => ?_) fun e t ht => ?_
  · unfold Concludes at ht
    split
    · next hstop => rwa [if_pos hstop] at ht
    · next hrun =>
      rw [if_neg hrun] at ht
      refine ht.imp (fun _ t ht => ?_) fun _ _ he => he.elim
      exact ht.imp (fun _ t ht => ht) fun _ _ he => he.elim
  · unfold Concludes at ht
    split
    · next hstop => rwa [if_pos hstop] at ht
    · next hrun =>
      rw [if_neg hrun] at ht
      refine ht.imp (fun _ t ht => ?_) fun _ _ he => he.elim
      exact ht.imp (fun _ t ht => ht) fun _ _ he => he.elim

/-- A session that runs on is where the retries have left it that follow on the dispatch. -/
def RunsOn (now : Readings) (dispatched later : Session × World σ) : Prop :=
  later.1.stopped = false → dispatched.1.stopped = false ∧ later = shown (retried now dispatched)

/-- If the session runs on after a message, it has run on after the dispatch, and only the retries
and the counts have followed. -/
theorem handle_runsOn (P : Platform σ) (now : Readings) (m : Message) (st : Session × World σ) :
    RunsOn now ((dispatch P now m).stateAfter st) ((handle P now m).stateAfter st) := by
  -- of a session that is stopped there is nothing to show, nor of one that a fatal fault tears down
  have hstops {later : Session × World σ} (hstop : later.1.stopped = true)
      (d : Session × World σ) : RunsOn now d later := by
    intro hrunning
    rw [hstop] at hrunning
    cases hrunning
  have hconcludes {K : Session × World σ → Prop} (d : Session × World σ)
      (hK : ∀ later, RunsOn now d later → K later) : Concludes now K d := by
    rw [concludes_iff]
    apply hK
    split
    · next hstop => exact hstops (show (shown d).1.stopped = true from hstop) d
    · next hrunning => exact fun _ => ⟨by simpa using hrunning, rfl⟩
  cases hstopped : st.1.stopped with
  | true =>
    apply hstops
    rw [Action.stateAfter, handle_stopped hstopped, hstopped]
  | false =>
  apply Ends.stateAfter
  apply ends_handle_of hstopped
  refine (ends_stateAfter (dispatch P now m)).imp ?_ ?_
  · rintro _ d rfl
    exact hconcludes _ fun _ h => h
  · rintro e d rfl
    refine hconcludes _ fun later h => ?_
    split
    · exact (teardown_stops later).imp (fun _ _ h => hstops h _) fun _ _ h => hstops h _
    · exact h

/-- Where a message leaves the session if it is not stopped then: after the retries. -/
theorem ends_handle {m : Message} {st : Session × World σ} {J : Session × World σ → Prop}
    {F : Fault → Prop} (hrunning : st.1.stopped = false)
    (hdispatch : (dispatch P now m).Ends st (fun _ t => J t)
      fun e t => F e ∧ (e.isFatal = true ∨ J t))
    (hretries : ∀ t, J t → t.1.stopped = false →
      (scheduleRetry now.retry.video .video).Ends t
        (fun _ t => (scheduleRetry now.retry.audio .audio).Ends t (fun _ t => I t)
          fun _ _ => False)
        fun _ _ => False)
    (hpublish : ∀ s w, I (s, w) → I ({ s with published := s.counts }, w))
    (hstopped : ∀ t, t.1.stopped = true → I t) :
    (handle P now m).Ends st (fun _ t => I t) fun e t => F e ∧ I t := by
  have hconcludes {K : Session × World σ → Prop} (hK : ∀ t, I t → K (shown t))
      (t : Session × World σ) (ht : J t) : Concludes now K t := by
    unfold Concludes
    split
    · next hstop => exact hK t (hstopped t hstop)
    · next hrun =>
      refine (hretries t ht (by simpa using hrun)).imp (fun _ t ht => ?_) fun _ _ he => he
      exact ht.imp (fun _ t ht => hK t ht) fun _ _ he => he
  -- a fatal fault leads to a teardown from wherever the retries have left the session
  have hfault (e : Fault) (hF : F e) (t : Session × World σ) (ht : e.isFatal = true ∨ I t) :
      if e.isFatal = true then
        (teardown P).Ends (shown t) (fun _ t => F e ∧ I t) fun _ t => F e ∧ I t
      else F e ∧ I (shown t) := by
    split
    · exact (teardown_stops _).imp (fun _ t h => ⟨hF, hstopped t h⟩) fun _ t h => ⟨hF, hstopped t h⟩
    · next hminor => exact ⟨hF, hpublish _ _ (ht.resolve_left hminor)⟩
  apply ends_handle_of hrunning
  refine hdispatch.imp (fun _ t ht => hconcludes (fun t => hpublish t.1 t.2) t ht) ?_
  -- a fatal fault stops the session from wherever it is; after any other it runs on from `J`
  rintro e t ⟨hF, hfatal | hJ⟩
  · exact concludes_of_forall fun t => hfault e hF t (Or.inl hfatal)
  · exact hconcludes (fun t ht => hfault e hF t (Or.inr ht)) t hJ

/-- A message that is handled well leaves the session running, if doing what it says does. -/
theorem handle_running {m : Message} {st : Session × World σ} (hrunning : st.1.stopped = false)
    (hdispatch : (dispatch P now m).Ends st (fun _ t => t.1.stopped = false) fun _ _ => True) :
    (handle P now m).Ends st (fun _ t => t.1.stopped = false) fun _ _ => True := by
  have hretry (time : Int) (u : Track) (t : Session × World σ) (ht : t.1.stopped = false) :
      (scheduleRetry time u).Ends t (fun _ t => t.1.stopped = false) fun _ _ => True :=
    ends_scheduleRetry (fun _ => ht) (fun _ _ _ => ht) fun _ _ _ _ => ht
  simp only [handle, ends_bind, ends_get, ends_ite, ends_pure, ends_attempt, ends_publish,
    ends_throw, hrunning, Bool.false_eq_true, if_false]
  refine hdispatch.imp (fun _ t ht => ?_) fun e t _ => ?_
  -- the session runs after the dispatch, so the retries follow, and they do not stop it
  · rw [if_neg (by simp [ht])]
    refine (hretry _ .video t ht).imp (fun _ t ht => ?_) fun _ _ _ => trivial
    exact (hretry _ .audio t ht).imp (fun _ _ ht => ht) fun _ _ _ => trivial
  · -- a fault of the message is one of the handling too
    have hfault (t : Session × World σ) : if e.isFatal = true then
          (teardown P).Ends ({ t.1 with published := t.1.counts }, t.2) (fun _ _ => True)
            fun _ _ => True
        else True := by
      split
      · exact ends_true _
      · trivial
    split
    · exact hfault t
    · refine ends_of_forall (fun _ t => ?_) fun _ _ => trivial
      exact ends_of_forall (fun _ t => hfault t) fun _ _ => trivial

/-- The retries that follow a message keep `J`, and so does showing the counts. -/
structure Settles (now : Readings) (J : Session × World σ → Prop) : Prop where
  retries : ∀ t st, J st →
    (scheduleRetry (now.retry.get t) t).Ends st (fun _ st => J st) fun _ _ => False
  publish : ∀ s w, J (s, w) → J ({ s with published := s.counts }, w)

/-- What the retries and the counts keep holds when a message is concluded. -/
theorem Settles.concludes {J : Session × World σ → Prop} (h : Settles now J)
    {st : Session × World σ} (hst : J st) : Concludes now J st := by
  unfold Concludes
  split
  · exact h.publish _ _ hst
  · refine (h.retries .video st hst).imp (fun _ t ht => ?_) fun _ _ he => he
    exact (h.retries .audio t ht).imp (fun _ _ ht => h.publish _ _ ht) fun _ _ he => he

/-- A message whose faults end no session leaves it where doing what the message says does. -/
theorem ends_handle_minor {m : Message} {st : Session × World σ} {J : Session × World σ → Prop}
    {E : Fault → Session × World σ → Prop} (hrunning : st.1.stopped = false)
    (hdispatch : (dispatch P now m).Ends st (fun _ t => J t)
      fun e t => e.isFatal = false ∧ E e t)
    (hJ : Settles now J) (hE : ∀ e, Settles now (E e)) :
    (handle P now m).Ends st (fun _ t => J t) fun e t => e.isFatal = false ∧ E e t := by
  apply ends_handle_of hrunning
  refine hdispatch.imp (fun _ t ht => hJ.concludes ht) ?_
  rintro e t ⟨hminor, ht⟩
  simpa only [hminor, Bool.false_eq_true, if_false, true_and] using (hE e).concludes ht

/-- What holds of the session is kept by a message, if doing what it says keeps it and a teardown
does. Retries are asked for only of a session that runs. -/
theorem handle_keeps {m : Message} {st : Session × World σ} (h : I st)
    (hdispatch : st.1.stopped = false →
      (dispatch P now m).Ends st (fun _ t => I t) fun _ t => I t)
    (hretry : ∀ u t, t.1.stopped = false → I t →
      (scheduleRetry (now.retry.get u) u).Ends t (fun _ t => t.1.stopped = false ∧ I t)
        fun _ t => I t)
    (hpublish : ∀ s w, I (s, w) → I ({ s with published := s.counts }, w))
    (hteardown : (teardown P).Keeps I) :
    (handle P now m).Ends st (fun _ t => I t) fun _ t => I t := by
  -- a fatal fault leads to a teardown from wherever the retries have left the session
  have hfault (e : Fault) (t : Session × World σ) (ht : I t) :
      if e.isFatal = true then
        (teardown P).Ends ({ t.1 with published := t.1.counts }, t.2) (fun _ t => I t)
          fun _ t => I t
      else I ({ t.1 with published := t.1.counts }, t.2) := by
    split
    · exact hteardown _ (hpublish _ _ ht)
    · exact hpublish _ _ ht
  simp only [handle, ends_bind, ends_get, ends_ite, ends_pure, ends_attempt, ends_publish,
    ends_throw]
  split
  · exact h
  next hrunning =>
  refine (hdispatch (by simpa using hrunning)).imp (fun _ t ht => ?_) fun e t ht => ?_
  · split
    · exact hpublish _ _ ht
    · next hrun =>
      refine (hretry .video t (by simpa using hrun) ht).imp (fun _ t ht => ?_) fun _ _ ht => ht
      exact (hretry .audio t ht.1 ht.2).imp (fun _ _ ht => hpublish _ _ ht.2) fun _ _ ht => ht
  · split
    · exact hfault e t ht
    · next hrun =>
      refine (hretry .video t (by simpa using hrun) ht).imp (fun _ t ht => ?_) fun _ _ ht => ht
      exact (hretry .audio t ht.1 ht.2).imp (fun _ t ht => hfault e t ht.2) fun _ _ ht => ht

/-- What holds of the world holds after a message, if it does after doing what the message says,
and if a teardown keeps it. -/
theorem handle_world {K : World σ → Prop} {m : Message} {st : Session × World σ} (h : K st.2)
    (hdispatch : (dispatch P now m).Ends st (fun _ t => K t.2) fun _ t => K t.2)
    (hteardown : (teardown P).Keeps fun t => K t.2) :
    (handle P now m).Ends st (fun _ t => K t.2) fun _ t => K t.2 := by
  apply handle_keeps (I := fun t => K t.2) h (fun _ => hdispatch) ?_ (fun _ _ hw => hw) hteardown
  intro u t hrun ht
  exact ends_scheduleRetry (fun _ => ⟨hrun, ht⟩) (fun _ _ _ => ⟨hrun, ht⟩) fun _ _ _ _ => ⟨hrun, ht⟩

/-! ## Many messages -/

/-- Taking a due timer: there is none, or it is not in the queue any more. -/
theorem ends_takeDue {Q : Option Message → Session × World σ → Prop}
    {E : Fault → Session × World σ → Prop} (st : Session × World σ) :
    (takeDue time).Ends st Q E ↔
      match st.1.timers.popDue time with
      | none => Q none st
      | some (m, timers) => Q (some m) ({ st.1 with timers }, st.2) := by
  simp only [takeDue, ends_bind, ends_get]
  split <;> simp_all

/-- Taking a letter: there is none, or it is not in the mailbox any more. -/
theorem ends_takeMail {Q : Option Message → Session × World σ → Prop}
    {E : Fault → Session × World σ → Prop} (st : Session × World σ) :
    takeMail.Ends st Q E ↔
      match st.2.mailbox with
      | [] => Q none st
      | m :: rest => Q (some m) (st.1, { st.2 with mailbox := rest }) := by
  simp only [takeMail, ends_bind, ends_get]
  split <;> simp_all

/-- What taking a message and handling it keep, handling them all keeps, and every fault is one of
a message. While a message is in hand `J` may hold instead of `I`. -/
theorem handleAll_ends {J : Message → Session × World σ → Prop}
    {E : Fault → Session × World σ → Prop} {take : Readings → Step σ (Option Message)}
    (htake : ∀ now st, I st → (take now).Ends st
      (fun next t => (next = none → I t) ∧ ∀ m, next = some m → J m t) E)
    (hhandle : ∀ now m st, J m st → (handle P now m).Ends st (fun _ t => I t) E)
    (clock : List Readings) (st : Session × World σ) (h : I st) :
    (handleAll P take clock).Ends st (fun _ t => I t) E := by
  -- one reading for each message: by induction on the readings, which is what bounds the loop
  induction clock generalizing st with
  | nil => exact h
  | cons now clock ih =>
    simp only [handleAll, ends_bind]
    refine (htake now st h).imp (fun next t ht => ?_) fun _ _ ht => ht
    cases next with
    | none => exact ht.1 rfl
    | some m =>
      simp only [ends_bind, ends_pure]
      refine (hhandle now m t (ht.2 m rfl)).imp (fun _ t ht => ?_) fun _ _ ht => ht
      exact ih t ht

/-- When all are handled there is nothing more to be taken. -/
theorem handleAll_exhausts {R : Session × World σ → Prop}
    {take : Readings → Step σ (Option Message)}
    (htake : ∀ now st, (take now).Ends st (fun next t => next = none → R t) fun _ _ => True)
    (clock : List Readings) (st : Session × World σ) :
    (handleAll P take clock).Ends st (fun n t => n ≠ none → R t) fun _ _ => True := by
  induction clock generalizing st with
  | nil => exact fun hne => absurd rfl hne
  | cons now clock ih =>
    simp only [handleAll, ends_bind]
    refine (htake now st).imp (fun next t ht => ?_) fun _ _ _ => trivial
    cases next with
    | none => exact fun _ => ht rfl
    | some m =>
      simp only [ends_bind, ends_pure]
      refine ends_of_forall (fun _ t => ?_) fun _ _ => trivial
      refine (ih t).imp (fun n t ht hne => ht fun hnone => hne ?_) fun _ _ _ => trivial
      -- if the readings ran out after the rest, they ran out after all of it
      rw [hnone]
      rfl

/-- What handling the mail keeps, and then handling the timers, draining the mailbox keeps. -/
theorem drainMailbox_ends {E : Fault → Session × World σ → Prop} {mail due : List Readings}
    {st : Session × World σ}
    (hmail : (handleAll P (fun _ => takeMail) mail).Ends st (fun _ t => I t) E)
    (hdue : ∀ t, I t → (fireDue P due).Ends t (fun _ t => I t) E) :
    (drainMailbox P mail due).Ends st (fun _ t => I t) E := by
  simp only [drainMailbox, ends_bind]
  refine hmail.imp ?_ fun _ _ ht => ht
  intro n t ht
  cases n with
  | none => exact ht
  | some n =>
    simp only [ends_bind, ends_pure]
    exact hdue t ht

/-- A run ends with a teardown. -/
theorem run_stops (clock : List Round) (st : Session × World σ) :
    (run P clock).Ends st (fun _ t => t.1.stopped = true) fun _ t => t.1.stopped = true := by
  simp only [run, ends_bind, ends_attempt]
  refine ends_of_forall (fun outcome t => ?_) fun e t => ?_
  · refine (teardown_stops t).imp (fun _ t h => ?_) fun e t h => ?_
    · cases outcome <;> exact h
    · cases outcome <;> exact h
  · exact (teardown_stops t).imp (fun _ _ h => h) fun _ _ h => h

/-! ## What is kept throughout -/

/-- Taking a message keeps `I`, handling it does, and a teardown. -/
structure Throughout (P : Platform σ) (I : Session × World σ → Prop) : Prop where
  due : ∀ time, (takeDue time : Step σ (Option Message)).Keeps I
  mail : (takeMail : Step σ (Option Message)).Keeps I
  message : ∀ now m, (handle P now m).Keeps I
  teardown : (teardown P).Keeps I

namespace Throughout

variable (h : Throughout P I)
include h

/-- What each step keeps, going through messages keeps. -/
theorem handleAll {take : Readings → Step σ (Option Message)}
    (htake : ∀ now, (take now).Keeps I) (clock : List Readings) :
    (handleAll P take clock).Keeps I := by
  apply handleAll_ends (J := fun _ => I)
  · intro now st hst
    exact (htake now st hst).imp (fun _ _ ht => ⟨fun _ => ht, fun _ _ => ht⟩) fun _ _ ht => ht
  · intro now m st hst
    exact h.message now m st hst

/-- What each step keeps, firing the timers keeps. -/
theorem fireDue (clock : List Readings) : (fireDue P clock).Keeps I :=
  h.handleAll (fun now => h.due now.timers) clock

/-- What each step keeps, draining the mailbox keeps. -/
theorem drainMailbox (mail due : List Readings) : (drainMailbox P mail due).Keeps I := by
  intro st hst
  apply drainMailbox_ends (h.handleAll (fun _ => h.mail) mail st hst)
  intro t ht
  exact h.fireDue due t ht

omit h in
/-- A rejected message is skipped, and leaves what it has left. -/
theorem skipRejected {a : Step σ (Option Nat)} (ha : a.Keeps I) : (skipRejected a).Keeps I := by
  intro st hst
  simp only [Session.skipRejected, ends_bind, ends_attempt, ends_ite, ends_throw, ends_pure,
    ite_self]
  exact ha st hst

/-- What each step keeps, the loop keeps, however many rounds it makes. -/
theorem loop (clock : List Round) : (loop P clock).Keeps I := by
  induction clock with
  | nil =>
    intro st hst
    exact hst
  | cons now clock ih =>
    intro st hst
    have hhandle (m : Message) : (Session.skipRejected do
        handle P now.mail m
        return some 1).Keeps I := by
      apply skipRejected
      intro st hst
      simp only [ends_bind, ends_pure]
      exact h.message now.mail m st hst
    simp only [Session.loop, ends_bind, ends_get, ends_ite, ends_pure]
    refine (skipRejected (h.fireDue now.due)).ends hst (fun n st hst => ?_) fun _ _ hst => hst
    -- the loop ends with a session that has stopped
    split
    · exact hst
    split
    · exact hst
    refine h.mail.ends hst (fun next st hst => ?_) fun _ _ hst => hst
    cases next with
    | none =>
      simp only [ends_ite, ends_pure]
      split
      · exact ih st hst
      · exact hst
    | some m =>
      simp only [ends_bind, ends_get, ends_ite, ends_pure]
      refine (hhandle m).ends hst (fun _ st hst => ?_) fun _ _ hst => hst
      split
      · exact hst
      · exact ih st hst

/-- What each step keeps, a whole run keeps, its teardown included. -/
theorem run (clock : List Round) : (run P clock).Keeps I := by
  intro st hst
  simp only [Session.run, ends_bind, ends_attempt, ends_throw]
  refine (h.loop clock).ends hst (fun outcome t ht => ?_) fun e t ht => ?_
  · refine h.teardown.ends ht (fun _ t ht => ?_) fun e t ht => ?_
    · cases outcome <;> exact ht
    · cases outcome <;> exact ht
  · exact h.teardown.ends ht (fun _ _ ht => ht) fun _ _ ht => ht

end Throughout

end Session

end Playout
