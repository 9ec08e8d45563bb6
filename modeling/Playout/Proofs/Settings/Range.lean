import Playout.Proofs.Reorder.Readings
import Playout.Proofs.Video.Readings
import Playout.Settings.Basic

/-!
# Settings that leave room for clock readings

The grace window and the lateness tolerance are set in milliseconds and added to clock readings in
words of 64 bits. With readings of less than `2 ^ 61` microseconds, 6917529027641081 milliseconds
are the most for which all of these sums are exact. The check of the settings asks for no more than
a grace window that is not zero.
-/

namespace Playout.Settings

/-- The longest time in milliseconds for which there is room behind every near reading. -/
def longestMillis : Nat := 6917529027641081

theorem toMicros_ofMillis_le_iff (ms : Nat) :
    (Span.ofMillis ms).toMicros ≤ longestSpan ↔ ms ≤ longestMillis := by
  have hmax : maxMicros = 2 ^ 63 - 1 := rfl
  unfold Span.toMicros Span.ofMillis longestSpan longestMillis
  dsimp only
  omega

theorem ite_some_eq_none_iff {c : Prop} [Decidable c] {m : Misfit} {rest : Option Misfit} :
    (if c then some m else rest) = none ↔ ¬ c ∧ rest = none := by
  split
  · next hc => exact iff_of_false nofun fun h => h.1 hc
  · next hc => exact ⟨fun h => ⟨hc, h⟩, fun h => h.2⟩

theorem misfit?_eq_none_iff {s : Settings} : s.misfit? = none ↔
    ¬ s.timeServer.host.isEmpty ∧ s.timeServer.port ≠ 0 ∧ s.timeServer.timeout ≠ 0 ∧
      s.timeServer.batchSize ≠ 0 ∧ ¬ 255 < s.receiver.name.utf8ByteSize ∧
      s.reorder.graceWindow ≠ 0 := by
  unfold misfit?
  simp only [ite_some_eq_none_iff, and_true, ne_eq]

theorem check_eq_ok_iff {s : Settings} : s.check = .ok s ↔ s.misfit? = none := by
  unfold check
  cases s.misfit? with
  | none => exact iff_of_true rfl rfl
  | some m => exact iff_of_false nofun nofun

/-- The check limits neither the grace window, unless it is zero, nor the tolerance. -/
theorem check_limits_neither {s : Settings} (h : s.check = .ok s) {window : UInt64}
    (hwindow : window ≠ 0) (tolerance : UInt64) :
    let s' := { s with reorder := ⟨window⟩, video := ⟨tolerance⟩ }
    s'.check = .ok s' := by
  obtain ⟨hhost, hport, htimeout, hbatch, hname, -⟩ := misfit?_eq_none_iff.mp (check_eq_ok_iff.mp h)
  exact check_eq_ok_iff.mpr
    (misfit?_eq_none_iff.mpr ⟨hhost, hport, htimeout, hbatch, hname, hwindow⟩)

open ReorderBuffer in
/-- **Which settings leave room for near readings.** Whatever the settings are, in every run of a
reorder buffer with near readings the age of the window is exact. The deadline is exact in all of
these runs if and only if the grace window is at most 6917529027641081 milliseconds, and in every
run of a scheduler with near readings and near presentation times everything is exact if and only
if the tolerance is at most as long. The check accepts settings that are longer. -/
theorem timing_exact_iff (s : Settings) :
    (∀ calls now, (∀ t ∈ times calls, NearZero t) → NearZero now →
      (run s.graceSpan.toMicros calls).buffer.nextChecked now =
        .ok ((run s.graceSpan.toMicros calls).buffer.next now)) ∧
    ((∀ calls, (∀ t ∈ times calls, NearZero t) →
      (run s.graceSpan.toMicros calls).buffer.deadlineChecked =
        .ok (run s.graceSpan.toMicros calls).buffer.skipDeadline?) ↔
      s.reorder.graceWindow.toNat ≤ longestMillis) ∧
    ((∀ (α : Type) (give : ReturnKind → Nat → Action α Unit) (a : α)
      (events : List Scheduler.Event) (event : Scheduler.Event),
      (∀ e ∈ events, e.Near) → event.Near →
        let t := Scheduler.afterEvents give events ({ tolerance := s.toleranceSpan.toMicros }, a)
        event.performChecked give t = .ok (event.perform give t)) ↔
      s.video.lateTolerance.toNat ≤ longestMillis) ∧
    (s.check = .ok s → ∀ window tolerance, window ≠ 0 →
      let s' := { s with reorder := ⟨window⟩, video := ⟨tolerance⟩ }
      s'.check = .ok s') := by
  -- the longest grace and the longest tolerance are the longest span of milliseconds
  refine ⟨fun calls now hcalls hnow => nextChecked_run hcalls hnow, ?_, ?_, ?_⟩
  · exact (deadlineChecked_run_iff (Span.toMicros_nonneg _)).trans (toMicros_ofMillis_le_iff _)
  · exact (Scheduler.performChecked_run_iff (Span.toMicros_nonneg _)).trans
      (toMicros_ofMillis_le_iff _)
  · exact fun hcheck window tolerance hwindow => check_limits_neither hcheck hwindow tolerance

/-- Settings with a grace window of 9223372036854776 milliseconds are accepted, and the deadline of
a gap that is seen at the reading 1 overflows. -/
theorem accepted_deadline_overflows :
    ¬ ∀ s : Settings, s.check = .ok s → ∀ calls, (∀ t ∈ ReorderBuffer.times calls, NearZero t) →
      (ReorderBuffer.run s.graceSpan.toMicros calls).buffer.deadlineChecked =
        .ok (ReorderBuffer.run s.graceSpan.toMicros calls).buffer.skipDeadline? := by
  intro h
  have hexact := h { reorder := ⟨9223372036854776⟩ } (by decide)
    [.insert ⟨⟨1⟩, [], 0, 0⟩, .insert ⟨⟨3⟩, [], 0, 0⟩, .next 1, .next 1] (by decide)
  revert hexact
  decide

end Playout.Settings
