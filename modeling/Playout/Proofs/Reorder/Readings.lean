import Playout.Proofs.Reorder.Waiting
import Playout.Proofs.Time.Readings
import Playout.Reorder.Buffer

/-!
# Ordered delivery with near readings

The window of a buffer was opened at a reading of its run. So as long as readings are near, the age
of the window never overflows, whatever the grace time is; the deadline overflows if the grace time
is too long for the latest of the readings.
-/

namespace Playout.ReorderBuffer

/-- The window was opened at the reading of a call. -/
theorem gapOpened_mem_times (grace : Int) (calls : List Call) {opened : Int}
    (h : (run grace calls).buffer.gapOpened = some opened) : opened ∈ times calls :=
  (stalledSince_of_gapOpened grace calls h).mem_times

variable {b : ReorderBuffer} {now : Int}

/-- What the window is waited for does not depend on when its age is taken, only on the age. -/
theorem waitChecked_eq (h : ∀ opened ∈ b.gapOpened, NearZero opened) (hnow : NearZero now)
    (expected : SeqNumber) (u : MediaUnit) (rest : List MediaUnit) :
    b.waitChecked now expected u rest = .ok (b.wait now expected u rest) := by
  unfold waitChecked
  cases hopen : b.gapOpened with
  | none => rfl
  | some opened =>
    simp only [Checked.difference_of_near hnow (h opened hopen)]
    show Except.ok (b.wait (opened + (now - opened)) expected u rest) = _
    rw [Int.add_comm, Int.sub_add_cancel]

/-- With near readings a turn counts the age of its window exactly. -/
theorem nextChecked_eq (h : ∀ opened ∈ b.gapOpened, NearZero opened) (hnow : NearZero now) :
    b.nextChecked now = .ok (b.next now) := by
  unfold nextChecked
  split
  · next u rest last hp hl =>
    split
    · rfl
    · next hne =>
      rw [waitChecked_eq ((dropStale_gapOpened b).symm ▸ h) hnow]
      simp only [next, hp, dropStale_lastDelivered, hl, if_neg hne]
  · rfl

/-- In every run with near readings the age of the window is exact. -/
theorem nextChecked_run {grace : Int} {calls : List Call}
    (hcalls : ∀ t ∈ times calls, NearZero t) (hnow : NearZero now) :
    (run grace calls).buffer.nextChecked now = .ok ((run grace calls).buffer.next now) :=
  nextChecked_eq (fun opened hopen => hcalls opened (gapOpened_mem_times grace calls hopen)) hnow

/-- The deadline is exact if its sum is readable. -/
theorem deadlineChecked_eq (h : ∀ opened ∈ b.gapOpened, Readable (opened + b.grace)) :
    b.deadlineChecked = .ok b.skipDeadline? := by
  unfold deadlineChecked skipDeadline?
  cases hp : b.pending with
  | nil => rfl
  | cons u rest =>
    cases hopen : b.gapOpened with
    | none => rfl
    | some opened =>
      simp only [Checked.sum_eq, if_pos (h opened hopen)]
      rfl

/-- A unit and one behind a gap come, and the gap is seen at the latest of the near readings. -/
def latestGap : List Call :=
  [.insert ⟨⟨1⟩, [], 0, 0⟩, .insert ⟨⟨3⟩, [], 0, 0⟩, .next latest, .next latest]

/-- The readings of the run are near. -/
theorem near_latestGap : ∀ t ∈ times latestGap, NearZero t := by decide

/-- In this run the deadline is the latest near reading and the grace time together. -/
theorem deadlineChecked_latestGap (grace : Int) :
    (run grace latestGap).buffer.deadlineChecked = some <$> Checked.sum latest grace := rfl

/-- In every run with near readings the deadline is exact, if and only if the grace time leaves room
for it. -/
theorem deadlineChecked_run_iff {grace : Int} (hpositive : 0 ≤ grace) :
    (∀ calls, (∀ t ∈ times calls, NearZero t) → (run grace calls).buffer.deadlineChecked =
      .ok (run grace calls).buffer.skipDeadline?) ↔ grace ≤ longestSpan := by
  constructor
  · intro h
    -- no other run has a later deadline
    have hexact := h latestGap near_latestGap
    rw [deadlineChecked_latestGap] at hexact
    obtain ⟨deadline, hsum⟩ : ∃ deadline, Checked.sum latest grace = .ok deadline := by
      cases hsum : Checked.sum latest grace with
      | ok deadline => exact ⟨deadline, rfl⟩
      | error e =>
        rw [hsum] at hexact
        cases hexact
    exact le_longestSpan (Checked.sum_eq_ok_iff.mp hsum).1
  -- the window was opened at a reading of the run, which is near
  · intro hgrace calls hcalls
    refine deadlineChecked_eq fun opened hopen => ?_
    rw [grace_run]
    exact (hcalls opened (gapOpened_mem_times grace calls hopen)).readable_sum hpositive hgrace

end Playout.ReorderBuffer
