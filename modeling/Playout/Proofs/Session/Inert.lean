import Playout.Proofs.Session.Teardown
import Playout.Proofs.Timer.Queue

/-!
# A stopped session

Once a session has stopped, nothing that it is told has an effect. Whatever has stopped it, a
shutdown, a teardown or a fault that is fatal, its timers were dropped then, also where a decoder
broke the teardown off; and a retry or a wake-up that a message asked for before its fault was
posted early enough to be dropped with them.

    silent_throughout : a session runs, or has stopped without a timer, and this is kept
    stopped_inert     : after any run that stopped the session, nothing has an effect on it
-/

namespace Playout.Session

open Playout.Action

variable {σ : Type} {st : Session × World σ}

/-- Stopped, and without a timer. -/
def Silent (st : Session × World σ) : Prop := st.1.stopped = true ∧ st.1.timers.entries = []

/-- Nothing has an effect in this state. It is said for every platform: no device is asked, so it
does not matter which devices there are. -/
structure Inert (st : Session × World σ) : Prop where
  timeless : st.1.timers.entries = []
  /-- A message is passed over -/
  message (P : Platform σ) (now : Readings) (m : Message) : handle P now m st = .ok () st
  /-- No timer is due, as one look at them tells -/
  timers (P : Platform σ) (clock : List Readings) :
    fireDue P clock st = .ok (if clock = [] then none else some 0) st
  /-- All mail is passed over that there are readings for -/
  mailbox (P : Platform σ) (mail due : List Readings) : drainMailbox P mail due st =
    .ok (if st.2.mailbox.length < mail.length ∧ due ≠ [] then some st.2.mailbox.length else none)
      (st.1, { st.2 with mailbox := st.2.mailbox.drop mail.length })
  teardown (P : Platform σ) : teardown P st = .ok () st

/-! ## What a stopped session does -/

section Silence

variable {P : Platform σ} {time : Int}

/-- Without a timer none is due. -/
theorem ends_takeDue_silent {Q : Option Message → Session × World σ → Prop}
    {E : Fault → Session × World σ → Prop} (h : st.1.timers.entries = []) :
    (takeDue time).Ends st Q E ↔ Q none st := by
  rw [ends_takeDue, TimerQueue.popDue_of_empty h]

/-- Firing finds no timer at the first look, if there is a reading to look by. -/
theorem fireDue_silent (h : Silent st) (clock : List Readings) :
    fireDue P clock st = .ok (if clock = [] then none else some 0) st := by
  apply ends_eq_iff.mp
  cases clock with
  | nil => exact ⟨rfl, rfl⟩
  | cons now clock =>
    simp only [fireDue, handleAll, ends_bind]
    exact (ends_takeDue_silent h.2).mpr ⟨rfl, rfl⟩

/-- The mail is taken one by one, and each message is passed over. -/
theorem handleMail_silent (h : Silent st) (mail : List Readings) :
    handleAll P (fun _ => takeMail) mail st =
      .ok (if st.2.mailbox.length < mail.length then some st.2.mailbox.length else none)
        (st.1, { st.2 with mailbox := st.2.mailbox.drop mail.length }) := by
  -- by induction on the readings, each of which takes one letter out of the mailbox
  induction mail generalizing st with
  | nil => rfl
  | cons now mail ih =>
    apply ends_eq_iff.mp
    simp only [handleAll, ends_bind]
    rw [ends_takeMail]
    split
    · next hmail =>
      rw [hmail]
      refine ⟨rfl, ?_⟩
      show st = (st.1, { st.2 with mailbox := [] })
      rw [← hmail]
    · next m rest hmail =>
      have hrest : Silent (st.1, { st.2 with mailbox := rest }) := h
      simp only [ends_bind, ends_pure]
      apply (ends_of_ok (handle_stopped hrest.1)).mpr
      apply (ends_of_ok (ih hrest)).mpr
      rw [hmail]
      refine ⟨?_, rfl⟩
      simp only [List.length_cons, Nat.add_lt_add_iff_right]
      split <;> rfl

/-- Draining passes the mail over, and then finds no timer. -/
theorem drainMailbox_silent (h : Silent st) (mail due : List Readings) :
    drainMailbox P mail due st =
      .ok (if st.2.mailbox.length < mail.length ∧ due ≠ [] then some st.2.mailbox.length else none)
        (st.1, { st.2 with mailbox := st.2.mailbox.drop mail.length }) := by
  have hrest : Silent (st.1, { st.2 with mailbox := st.2.mailbox.drop mail.length }) := h
  apply ends_eq_iff.mp
  simp only [drainMailbox, ends_bind]
  apply (ends_of_ok (handleMail_silent h mail)).mpr
  -- the timers are looked at only if the mailbox was emptied
  by_cases hmail : st.2.mailbox.length < mail.length
  · simp only [if_pos hmail, ends_bind, ends_pure]
    apply (ends_of_ok (fireDue_silent hrest due)).mpr
    by_cases hdue : due = []
    · simp [hdue]
    · simp [hdue, hmail]
  · simp only [hmail, false_and]
    exact ⟨rfl, rfl⟩

/-- A session that has stopped without a timer is inert. -/
theorem Silent.inert (h : Silent st) : Inert st where
  timeless := h.2
  message _ _ _ := handle_stopped h.1
  timers _ clock := fireDue_silent h clock
  mailbox _ mail due := drainMailbox_silent h mail due
  teardown _ := teardown_stopped h.1

/-- Wherever a teardown ends, the timers have been dropped. -/
theorem teardown_silent (hrunning : st.1.stopped = false) :
    (teardown P).Ends st (fun _ t => Silent t) fun _ t => Silent t := by
  have haside : Aside fun t : Session × World σ => Silent t := fun _ _ _ _ _ _ _ h => h
  exact teardown_ends_aside haside hrunning ⟨rfl, rfl⟩

end Silence

/-! ## Every run -/

variable {P : Platform σ} {st : Session × World (Recorded σ)}

/-- The session runs, or it has stopped for good. -/
def RunningOrSilent (st : Session × World (Recorded σ)) : Prop := Running st ∨ Silent st

/-- While a session has not stopped it runs in order. -/
theorem RunningOrSilent.running (h : RunningOrSilent st) (hrunning : st.1.stopped = false) :
    Running st :=
  h.resolve_right fun hsilent => by simp [hsilent.1] at hrunning

/-- A teardown drops the timers before anything in it can fail. -/
theorem teardown_runningOrSilent : (teardown P.recorded).Keeps RunningOrSilent := by
  rintro st (hrunning | hsilent)
  · exact (teardown_silent hrunning.1).imp (fun _ _ h => Or.inr h) fun _ _ h => Or.inr h
  · exact (ends_teardown_stopped hsilent.1).mpr (Or.inr hsilent)

/-- A message leaves a session that runs in order, or one that has stopped for good. -/
theorem handle_runningOrSilent (now : Readings) (m : Message) :
    (handle P.recorded now m).Keeps RunningOrSilent := by
  intro st h
  apply handle_keeps h
  · intro hrunning
    by_cases hm : m = .shutdown
    · subst hm
      exact teardown_runningOrSilent st h
    · exact (dispatch_running P now hm).ends (h.running hrunning) (fun _ _ h => Or.inl h)
        fun _ _ h => Or.inl h
  -- retries are posted by a session that runs, so that a stopped one has no timer
  · intro t r hrunning hr
    exact (scheduleRetry_running _ t).ends (hr.running hrunning)
      (fun _ _ h => ⟨h.1, Or.inl h⟩) fun _ _ h => Or.inl h
  · rintro s w (hrunning | hsilent)
    · exact Or.inl (hrunning.frame rfl rfl rfl rfl rfl)
    · exact Or.inr hsilent
  · exact teardown_runningOrSilent

/-- A session that has stopped has no timer, and this is kept. -/
theorem silent_throughout : Throughout P.recorded (RunningOrSilent (σ := σ)) where
  due _ := by
    -- a session that runs may lose a timer, one that is silent has none to lose
    rintro st (hrunning | hsilent)
    · rw [ends_takeDue]
      split
      · exact Or.inl hrunning
      · exact Or.inl (hrunning.frame rfl rfl rfl rfl rfl)
    · exact (ends_takeDue_silent hsilent.2).mpr (Or.inr hsilent)
  mail := by
    intro st h
    rw [ends_takeMail]
    split
    · exact h
    · exact h.imp (fun hrunning => hrunning.frame rfl rfl rfl rfl rfl) id
  message := handle_runningOrSilent
  teardown := teardown_runningOrSilent

/-- After any run the session is in order, or has stopped for good. -/
theorem afterEvents_runningOrSilent (P : Platform σ) (tolerance : Int) (devices : σ)
    (events : List (Event σ)) : RunningOrSilent (afterEvents P tolerance devices events) := by
  apply afterEvents_induction
  · exact Or.inl (new_running tolerance devices)
  · intro e _ st h
    apply silent_throughout.perform ?_ e h
    intro s w change posted h
    exact h.imp (fun hrunning => hrunning.frame rfl rfl rfl rfl rfl) id

/-- The session is `s`, and the record of the devices `calls`. -/
def Still (s : Session) (calls : List DeviceCall) (st : Session × World (Recorded σ)) : Prop :=
  st.1 = s ∧ st.2.devices.calls = calls

/-- Nothing that happens changes a session that has stopped, and none of its devices is told
anything. -/
theorem still_throughout {s : Session} {calls : List DeviceCall} (hstopped : s.stopped = true)
    (htimers : s.timers.entries = []) : Throughout P.recorded (Still (σ := σ) s calls) where
  due _ := by
    rintro st ⟨rfl, hcalls⟩
    exact (ends_takeDue_silent htimers).mpr ⟨rfl, hcalls⟩
  mail := by
    intro st h
    rw [ends_takeMail]
    split
    · exact h
    · exact h
  message now m := by
    rintro st ⟨rfl, hcalls⟩
    exact (ends_handle_stopped hstopped).mpr ⟨rfl, hcalls⟩
  teardown := by
    rintro st ⟨rfl, hcalls⟩
    exact (ends_teardown_stopped hstopped).mpr ⟨rfl, hcalls⟩

/-- **A stopped session is inert.** After any run that has stopped the session, by a shutdown, a
teardown or a fatal fault, however the teardown ended, the session has no timer and stays as it is,
whatever it is told from then on and however the devices move on; none of its devices is told
anything more, and at every later time all that it can be told is answered well. -/
theorem stopped_inert (P : Platform σ) (tolerance : Int) (devices : σ)
    (events more : List (Event σ))
    (hstopped : (afterEvents P tolerance devices events).1.stopped = true) :
    let st := afterEvents P tolerance devices events
    let later := afterEvents P tolerance devices (events ++ more)
    Inert st ∧ Inert later ∧ later.1 = st.1 ∧ later.2.devices.calls = st.2.devices.calls := by
  intro st later
  have hsilent : Silent st := (afterEvents_runningOrSilent P tolerance devices events).resolve_left
    fun hrunning => by simp [hrunning.1] at hstopped
  -- the rest of the run goes on from a stopped session, and changes neither it nor the record
  have hstill : Still st.1 st.2.devices.calls later := by
    show Still _ _ (afterEvents P tolerance devices (events ++ more))
    rw [afterEvents_append]
    apply events_induction ⟨rfl, rfl⟩
    intro e _ r hr
    exact (still_throughout hsilent.1 hsilent.2).perform (fun _ _ _ _ h => h) e hr
  have hlater : Silent later := by
    rw [Silent, hstill.1]
    exact hsilent
  exact ⟨hsilent.inert, hlater.inert, hstill⟩

/-- What comes too late. -/
def afterwards : List (Event Simulation) :=
  [.message (.still 7) (.queueUnit 0 ⟨0, [1]⟩), .devices id [.shutdown, .retryDecoder 0],
    .mailbox (.replicate 3 (.still 9)) [.still 9], .timers [.still 90000], .teardown]

/-- The decoder that refused to stop is not told to stop again. -/
theorem busyStop_inert :
    (afterEvents busyStop 0 {} bothTracks).1.stopped = true ∧
      Inert (afterEvents busyStop 0 {} bothTracks) ∧
      Inert (afterEvents busyStop 0 {} (bothTracks ++ afterwards)) ∧
      (afterEvents busyStop 0 {} (bothTracks ++ afterwards)).2.devices.calls.head? =
        some (.decoder .video 1 .stop (some .busy)) := by
  have hstopped : (afterEvents busyStop 0 {} bothTracks).1.stopped = true := by decide +kernel
  have hlast : (afterEvents busyStop 0 {} bothTracks).2.devices.calls.head? =
      some (.decoder .video 1 .stop (some .busy)) := by decide +kernel
  obtain ⟨hinert, hlater, -, hcalls⟩ := stopped_inert busyStop 0 {} bothTracks afterwards hstopped
  refine ⟨hstopped, hinert, hlater, ?_⟩
  rw [hcalls]
  exact hlast

end Playout.Session
