import Mathlib.Data.List.Perm.Basic
import Mathlib.Data.Prod.Lex
import Playout.Timer.Queue

/-!
# What waits, and what is due

`items q` are the items of a timer queue, and `dueItems q now` those that are due. Taking the
first timer takes one of them out, in whatever place it stands; posting an item puts it among
them, and among those that are due if its time has come. The entry that is taken is the one with the
least `key`, its due time and then its ticket (`first?_leaves`).
-/

namespace Playout

variable {α : Type}

namespace TimerEntry

/-- The entry that leaves first and the others are the entries there were. -/
theorem takeFirst_perm (a : TimerEntry α) (rest : List (TimerEntry α)) :
    ((a.takeFirst rest).1 :: (a.takeFirst rest).2).Perm (a :: rest) := by
  induction rest generalizing a with
  | nil => exact List.Perm.refl _
  | cons b rest ih =>
    simp only [takeFirst]
    split
    · exact ((List.Perm.swap _ _ _).trans ((ih b).cons a))
    · exact (List.Perm.swap _ _ _).trans (((ih a).cons b).trans (List.Perm.swap _ _ _))

/-- The due time, and then the place in the order of posting. -/
def key (e : TimerEntry α) : Int ×ₗ Nat := toLex (e.due, e.ticket)

theorem key_le_iff {a b : TimerEntry α} :
    a.key ≤ b.key ↔ a.due < b.due ∨ a.due = b.due ∧ a.ticket ≤ b.ticket :=
  Prod.Lex.toLex_le_toLex

theorem due_le_of_key_le {a b : TimerEntry α} (h : a.key ≤ b.key) : a.due ≤ b.due := by
  rcases key_le_iff.mp h with hlt | ⟨heq, -⟩
  · exact Int.le_of_lt hlt
  · exact Int.le_of_eq heq

theorem before_iff {a b : TimerEntry α} : a.before b ↔ a.key < b.key := by
  have hkey : a.key < b.key ↔ a.due < b.due ∨ a.due = b.due ∧ a.ticket < b.ticket :=
    Prod.Lex.toLex_lt_toLex
  rw [hkey]
  simp only [before, Bool.or_eq_true, decide_eq_true_eq, Bool.and_eq_true]

/-- The entry that leaves first has the least key. -/
theorem takeFirst_key_le (a : TimerEntry α) (rest : List (TimerEntry α)) :
    ∀ e ∈ a :: rest, (a.takeFirst rest).1.key ≤ e.key := by
  induction rest generalizing a with
  | nil =>
    intro e he
    rw [List.mem_singleton.mp he]
    exact le_rfl
  | cons b rest ih =>
    intro e he
    simp only [takeFirst]
    split
    · next hbefore => -- `b` is the better candidate, and goes on to the rest
      have hle : b.key ≤ a.key := (before_iff.mp hbefore).le
      rcases List.mem_cons.mp he with rfl | he
      · exact (ih b b List.mem_cons_self).trans hle
      · exact ih b e he
    · next hbehind => -- `a` stays the candidate
      have hle : a.key ≤ b.key := not_lt.mp fun hlt => hbehind (before_iff.mpr hlt)
      have hfirst := ih a a List.mem_cons_self
      rcases List.mem_cons.mp he with rfl | he
      · exact hfirst
      · rcases List.mem_cons.mp he with rfl | he
        · exact hfirst.trans hle
        · exact ih a e (List.mem_cons_of_mem _ he)

end TimerEntry

namespace TimerQueue

def items (q : TimerQueue α) : List α := q.entries.map (·.item)

@[simp] theorem items_schedule (q : TimerQueue α) (due : Int) (item : α) :
    (q.schedule due item).items = item :: q.items := rfl

/-- The items that are due at `now`. -/
def dueItems (q : TimerQueue α) (now : Int) : List α :=
  (q.entries.filter fun e => e.due ≤ now).map (·.item)

theorem dueItems_schedule (q : TimerQueue α) (now due : Int) (item : α) :
    (q.schedule due item).dueItems now =
      if due ≤ now then item :: q.dueItems now else q.dueItems now := by
  by_cases h : due ≤ now <;> simp [dueItems, schedule, h]

theorem first?_eq_none_iff {q : TimerQueue α} : q.first? = none ↔ q.entries = [] := by
  unfold first?
  cases q.entries <;> simp

/-- One of the entries with the least key leaves, and the others stay. -/
theorem first?_leaves {q q' : TimerQueue α} {e : TimerEntry α} (h : q.first? = some (e, q')) :
    (e :: q'.entries).Perm q.entries ∧ (∀ f ∈ q.entries, e.key ≤ f.key) ∧
      q'.nextTicket = q.nextTicket := by
  unfold first? at h
  cases hq : q.entries with
  | nil => simp [hq] at h
  | cons a rest =>
    simp only [hq, Option.some.injEq, Prod.mk.injEq] at h
    obtain ⟨rfl, rfl⟩ := h
    exact ⟨TimerEntry.takeFirst_perm a rest, TimerEntry.takeFirst_key_le a rest, rfl⟩

/-- An entry that is taken was due, and the others stay. -/
theorem popDue_entries {q q' : TimerQueue α} {now : Int} {item : α}
    (h : q.popDue now = some (item, q')) :
    ∃ e, e.item = item ∧ e.due ≤ now ∧ (e :: q'.entries).Perm q.entries := by
  unfold popDue at h
  split at h
  · next e rest hfirst =>
    split at h
    · next hdue =>
      obtain ⟨rfl, rfl⟩ : e.item = item ∧ rest = q' := by simpa using h
      exact ⟨e, rfl, hdue, (first?_leaves hfirst).1⟩
    · cases h
  · cases h

/-- What is taken was due, and the rest of what was due stays. -/
theorem popDue_perm {q q' : TimerQueue α} {now : Int} {item : α}
    (h : q.popDue now = some (item, q')) :
    (item :: q'.dueItems now).Perm (q.dueItems now) := by
  obtain ⟨e, rfl, hdue, hperm⟩ := popDue_entries h
  have hitems := (hperm.filter fun e => e.due ≤ now).map (·.item)
  simpa [dueItems, hdue] using hitems

/-- Every item but the one that is taken stays. -/
theorem popDue_items {q q' : TimerQueue α} {now : Int} {item : α}
    (h : q.popDue now = some (item, q')) : (item :: q'.items).Perm q.items := by
  obtain ⟨e, rfl, -, hperm⟩ := popDue_entries h
  exact hperm.map (·.item)

theorem popDue_of_empty {q : TimerQueue α} (h : q.entries = []) (now : Int) :
    q.popDue now = none := by
  rw [popDue, first?, h]

/-- If nothing is taken, nothing was due. -/
theorem lt_due_of_popDue_none {q : TimerQueue α} {now : Int} (h : q.popDue now = none) :
    ∀ e ∈ q.entries, now < e.due := by
  intro e he
  unfold popDue at h
  split at h
  · next first rest hfirst =>
    split at h
    · cases h
    · next hlate => -- the first entry is not due, and no other is due before it
      have hle := TimerEntry.due_le_of_key_le ((first?_leaves hfirst).2.1 e he)
      omega
  · next hnone =>
    rw [first?_eq_none_iff.mp hnone] at he
    cases he

end TimerQueue

end Playout
