import Mathlib.Data.List.Nodup
import Mathlib.Data.List.ReduceOption
import Playout.Proofs.Timer.Queue

/-!
# Timers leave in their order

A `Ledger` is the whole history of a timer queue: the entries that were posted, in that order, those
that were returned, and those that were cleared. What waits are the posted ones that are neither
(`Ledger.waiting`), and the one to leave next is the one with the least due time and, among those,
the least place in the order of posting (`Ledger.first?`). A queue that forgets what has left gives
the same answers as its ledger, for all calls in any order:

    run_agrees   : the answers are the same, and the queue holds what waits in the ledger
    Sound        : what was posted is returned, cleared or waiting, each of it once, and entries
                   that are due at the same time are returned in the order in which they were posted
    run_stable   : both, for the calls from an empty queue

A heap that is ordered by `rank` has the same entry on top, since no two entries that wait have the
same rank (`rank_ne_gt_iff`).
-/

namespace Playout

variable {α : Type}

/-- The order for a heap with a greatest entry on top: what leaves earlier is greater. -/
def TimerEntry.rank (a b : TimerEntry α) : Ordering :=
  (compare b.due a.due).then (compare b.ticket a.ticket)

/-- The heap's order is that of the keys, turned round. -/
theorem TimerEntry.rank_ne_gt_iff {a b : TimerEntry α} : a.rank b ≠ .gt ↔ b.key ≤ a.key := by
  rw [rank, ne_eq, Ordering.then_eq_gt, compare_gt_iff_gt, compare_gt_iff_gt, compare_eq_iff_eq,
    key_le_iff]
  omega

namespace TimerQueue

/-- What a timer queue is asked for. -/
inductive Call (α : Type) where
  | schedule (due : Int) (item : α)
  | popDue (now : Int)
  | clear
deriving DecidableEq, Inhabited, Repr

/-- The due time and the item that a call posts. -/
def Call.posting? : Call α → Option (Int × α)
  | schedule due item => some (due, item)
  | _ => none

/-- The item that a call returns, and the queue after it. -/
def Call.perform (q : TimerQueue α) : Call α → Option α × TimerQueue α
  | schedule due item => (none, q.schedule due item)
  | popDue now =>
    match q.popDue now with
    | some (item, rest) => (some item, rest)
    | none => (none, q)
  | clear => (none, q.clear)

/-- The answers to some calls, and the state after them. -/
def run {σ : Type} (step : σ → Call α → Option α × σ) (s : σ) :
    List (Call α) → List (Option α) × σ
  | [] => ([], s)
  | call :: calls =>
    let (answer, s) := step s call
    let (answers, s) := run step s calls
    (answer :: answers, s)

/-- The history of a timer queue. -/
structure Ledger (α : Type) where
  /-- In the order of posting; the ticket of an entry is its place. -/
  posted : List (TimerEntry α) := []
  /-- In the order in which they were returned -/
  returned : List (TimerEntry α) := []
  cleared : List (TimerEntry α) := []

namespace Ledger

/-- Due times and items in the order of posting. -/
def postings (l : Ledger α) : List (Int × α) := l.posted.map fun e => (e.due, e.item)

/-- Whether an entry was returned or cleared. -/
def gone (l : Ledger α) (e : TimerEntry α) : Bool :=
  (l.returned ++ l.cleared).any (·.ticket = e.ticket)

/-- What was posted, and neither returned nor cleared. -/
def waiting (l : Ledger α) : List (TimerEntry α) := l.posted.filter fun e => !l.gone e

/-- Of the waiting entries that are due before or with all others, the one posted first. -/
def first? (l : Ledger α) : Option (TimerEntry α) :=
  l.waiting.find? fun e => l.waiting.all fun f => e.due ≤ f.due

/-- The item that a call has to return, and the ledger after it. -/
def record (l : Ledger α) : Call α → Option α × Ledger α
  | .schedule due item =>
    (none, { l with posted := l.posted ++ [⟨due, l.posted.length, item⟩] })
  | .popDue now =>
    match l.first?.filter (·.due ≤ now) with
    | some e => (some e.item, { l with returned := l.returned ++ [e] })
    | none => (none, l)
  | .clear => (none, { l with cleared := l.cleared ++ l.waiting })

/-! ## What every ledger keeps -/

/-- What was posted is accounted for, and entries with equal due times are in turn. -/
structure Sound (l : Ledger α) : Prop where
  tickets : l.posted.map (·.ticket) = List.range l.posted.length
  accounted : (l.returned ++ (l.cleared ++ l.waiting)).Perm l.posted
  inTurn : l.returned.Pairwise fun e f => e.due = f.due → e.ticket < f.ticket
  ahead : ∀ e ∈ l.returned, ∀ f ∈ l.waiting, e.due = f.due → e.ticket < f.ticket

theorem sound_start : ({} : Ledger α).Sound where
  tickets := rfl
  accounted := List.Perm.refl _
  inTurn := .nil
  ahead := fun _ he => absurd he List.not_mem_nil

section

variable {l : Ledger α} {e : TimerEntry α}

theorem Sound.ticket_lt (h : l.Sound) (he : e ∈ l.posted) : e.ticket < l.posted.length := by
  have hticket : e.ticket ∈ l.posted.map (·.ticket) := List.mem_map_of_mem he
  rw [h.tickets] at hticket
  exact List.mem_range.mp hticket

theorem Sound.tickets_nodup (h : l.Sound) : (l.posted.map (·.ticket)).Nodup := by
  rw [h.tickets]
  exact List.nodup_range

theorem posted_of_waiting (he : e ∈ l.waiting) : e ∈ l.posted := List.mem_of_mem_filter he

/-- Of the waiting entries, one that has the ticket of `e` is `e`. -/
theorem Sound.eq_of_ticket (h : l.Sound) {f : TimerEntry α} (he : e ∈ l.waiting)
    (hf : f ∈ l.waiting) (hticket : e.ticket = f.ticket) : e = f :=
  List.inj_on_of_nodup_map h.tickets_nodup (posted_of_waiting he) (posted_of_waiting hf) hticket

/-- What waits is in the order of posting. -/
theorem Sound.waiting_sorted (h : l.Sound) : l.waiting.Pairwise (·.ticket < ·.ticket) := by
  have hposted : l.posted.Pairwise (·.ticket < ·.ticket) := by
    apply List.pairwise_map.mp
    rw [h.tickets]
    exact List.pairwise_lt_range
  exact hposted.filter _

theorem Sound.waiting_nodup (h : l.Sound) : l.waiting.Nodup := h.tickets_nodup.of_map.filter _

theorem first?_of_empty (h : l.waiting = []) : l.first? = none := by
  rw [first?, h]
  rfl

/-- The entry that is found has the least key: one that is due with it stands behind it, or it would
have been found before. -/
theorem Sound.key_le_of_first? (h : l.Sound) (hfirst : l.first? = some e) :
    ∀ f ∈ l.waiting, e.key ≤ f.key := by
  obtain ⟨hleast, before, behind, hsplit, hpassed⟩ := List.find?_eq_some_iff_append.mp hfirst
  simp only [List.all_eq_true, decide_eq_true_eq] at hleast
  intro f hf
  apply TimerEntry.key_le_iff.mpr
  rcases Int.lt_or_eq_of_le (hleast f hf) with hlt | heq
  · exact .inl hlt
  -- an entry that is due with it would have been found first, if it stood before it
  · have hbehind : f ∉ before := by
      intro hbefore
      have hother := hpassed f hbefore
      rw [Bool.not_eq_true', ← Bool.not_eq_true] at hother
      apply hother
      simp only [List.all_eq_true, decide_eq_true_eq]
      exact fun g hg => heq ▸ hleast g hg
    rw [hsplit] at hf
    rcases List.mem_append.mp hf with hf | hf
    · exact absurd hf hbehind
    · have hsorted := h.waiting_sorted
      rw [hsplit] at hsorted
      rcases List.mem_cons.mp hf with rfl | hf
      · exact .inr ⟨rfl, Nat.le_refl _⟩
      · have hlt := List.rel_of_pairwise_cons (List.pairwise_append.mp hsorted).2.1 hf
        exact .inr ⟨heq, hlt.le⟩

/-- The first entry is the waiting one with the least key. -/
theorem Sound.first?_eq_some_iff (h : l.Sound) :
    l.first? = some e ↔ e ∈ l.waiting ∧ ∀ f ∈ l.waiting, e.key ≤ f.key := by
  constructor
  · intro hfirst
    exact ⟨List.mem_of_find?_eq_some hfirst, h.key_le_of_first? hfirst⟩
  · intro ⟨he, hleast⟩
    -- something is found, for `e` itself would do
    obtain ⟨m, hfirst⟩ : ∃ m, l.first? = some m := by
      apply Option.isSome_iff_exists.mp
      apply List.find?_isSome.mpr
      refine ⟨e, he, ?_⟩
      simp only [List.all_eq_true, decide_eq_true_eq]
      exact fun f hf => TimerEntry.due_le_of_key_le (hleast f hf)
    have hm : m ∈ l.waiting := List.mem_of_find?_eq_some hfirst
    -- what is found has the key of `e`, and so its ticket
    have hkey : m.key = e.key := le_antisymm (h.key_le_of_first? hfirst e he) (hleast m hm)
    have hticket : m.ticket = e.ticket := congrArg (fun k => (ofLex k).2) hkey
    rw [hfirst, h.eq_of_ticket hm he hticket]

/-! ### What each call does to what waits -/

theorem gone_iff : l.gone e ↔ ∃ f ∈ l.returned ++ l.cleared, f.ticket = e.ticket := by
  simp only [gone, List.any_eq_true, decide_eq_true_eq]

theorem Sound.posted_of_gone (h : l.Sound) (he : e ∈ l.returned ++ l.cleared) : e ∈ l.posted := by
  apply h.accounted.subset
  rw [← List.append_assoc]
  exact List.mem_append_left _ he

/-- A new entry waits behind the others. -/
theorem Sound.waiting_schedule (h : l.Sound) (due : Int) (item : α) :
    (l.record (.schedule due item)).2.waiting =
      l.waiting ++ [⟨due, l.posted.length, item⟩] := by
  have hnew : ¬ l.gone ⟨due, l.posted.length, item⟩ := by
    intro hgone
    obtain ⟨f, hf, hticket⟩ := gone_iff.mp hgone
    exact Nat.ne_of_lt (h.ticket_lt (h.posted_of_gone hf)) hticket
  show (l.posted ++ [_]).filter (fun e => !l.gone e) = _
  rw [List.filter_append, List.filter_cons_of_pos (by simpa using hnew)]
  rfl

/-- An entry that is returned is taken from those that wait. -/
theorem Sound.waiting_return (h : l.Sound) (he : e ∈ l.waiting) :
    (e :: { l with returned := l.returned ++ [e] }.waiting).Perm l.waiting := by
  classical
  have hgone : ∀ f, { l with returned := l.returned ++ [e] }.gone f =
      (l.gone f || decide (e.ticket = f.ticket)) := by
    intro f
    simp only [gone, List.any_append, List.any_cons, List.any_nil, Bool.or_false]
    rw [Bool.or_right_comm]
  -- tickets are different, so no other entry is gone with it
  have hkept : { l with returned := l.returned ++ [e] }.waiting = l.waiting.erase e := by
    rw [h.waiting_nodup.erase_eq_filter, waiting, waiting, List.filter_filter]
    apply List.filter_congr
    intro f hf
    rw [hgone]
    cases hf' : l.gone f with
    | true => simp
    | false =>
      have hwaits : f ∈ l.waiting := List.mem_filter.mpr ⟨hf, by simp [hf']⟩
      have hsame : e.ticket = f.ticket ↔ f = e :=
        ⟨fun hticket => h.eq_of_ticket hwaits he hticket.symm, fun heq => by rw [heq]⟩
      rw [Bool.false_or, Bool.not_false, Bool.and_true, decide_eq_decide.mpr hsame]
      rfl
  rw [hkept]
  exact (List.perm_cons_erase he).symm

/-- Clearing leaves nothing waiting. -/
theorem Sound.waiting_clear (h : l.Sound) : (l.record .clear).2.waiting = [] := by
  apply List.filter_eq_nil_iff.mpr
  intro e he
  have hgone : (l.record .clear).2.gone e := by
    apply gone_iff.mpr
    refine ⟨e, ?_, rfl⟩
    exact h.accounted.symm.subset he
  simp [hgone]

/-! ### Every call keeps a ledger sound -/

/-- A new entry has the last ticket. -/
theorem Sound.schedule (h : l.Sound) (due : Int) (item : α) :
    (l.record (.schedule due item)).2.Sound where
  tickets := by
    simp only [record, List.map_append, h.tickets, List.length_append, List.length_singleton,
      List.range_succ]
    rfl
  accounted := by
    rw [h.waiting_schedule, ← List.append_assoc, ← List.append_assoc]
    apply List.Perm.append_right
    rw [List.append_assoc]
    exact h.accounted
  inTurn := h.inTurn
  ahead e he f hf hdue := by
    rw [h.waiting_schedule] at hf
    -- what was returned was posted before the new entry
    rcases List.mem_append.mp hf with hf | hf
    · exact h.ahead e he f hf hdue
    · rw [List.mem_singleton.mp hf]
      exact h.ticket_lt (h.posted_of_gone (List.mem_append_left _ he))

/-- The first of those that wait is returned behind all that were due at the same time and posted
before it, and before all that are posted behind it. -/
theorem Sound.returns (h : l.Sound) (hfirst : l.first? = some e) :
    { l with returned := l.returned ++ [e] }.Sound := by
  obtain ⟨he, hleast⟩ := h.first?_eq_some_iff.mp hfirst
  have hperm := h.waiting_return he
  have hnodup : (e :: { l with returned := l.returned ++ [e] }.waiting).Nodup :=
    hperm.symm.nodup h.waiting_nodup
  constructor
  · exact h.tickets
  · rw [List.append_assoc]
    apply ((List.perm_middle.symm.trans (hperm.append_left l.cleared)).append_left l.returned).trans
    exact h.accounted
  -- the last one returned is behind all others that were due then
  · apply List.pairwise_append.mpr
    refine ⟨h.inTurn, List.pairwise_singleton _ _, fun f hf g hg => ?_⟩
    rw [List.mem_singleton.mp hg]
    exact h.ahead f hf e he
  -- and before those that still wait
  · intro f hf g hg hdue
    have hwaits : g ∈ l.waiting := hperm.subset (List.mem_cons_of_mem _ hg)
    rcases List.mem_append.mp hf with hf | hf
    · exact h.ahead f hf g hwaits hdue
    · rw [List.mem_singleton.mp hf] at hdue ⊢
      have hother : e.ticket ≠ g.ticket := by
        intro hticket
        rw [← h.eq_of_ticket he hwaits hticket] at hg
        exact (List.nodup_cons.mp hnodup).1 hg
      have hle := TimerEntry.key_le_iff.mp (hleast g hwaits)
      omega

/-- What waits is cleared. -/
theorem Sound.clear (h : l.Sound) : (l.record .clear).2.Sound where
  tickets := h.tickets
  accounted := by
    rw [h.waiting_clear, List.append_nil]
    exact h.accounted
  inTurn := h.inTurn
  ahead e _ f hf := by
    rw [h.waiting_clear] at hf
    exact absurd hf List.not_mem_nil

end

/-! ### What a run adds to the history -/

/-- Each call adds what it posts and what it returns, and only `clear` adds to what was cleared. -/
theorem record_adds (l : Ledger α) (call : Call α) :
    (l.record call).2.postings = l.postings ++ call.posting?.toList ∧
      (l.record call).2.returned.map (·.item) =
        l.returned.map (·.item) ++ (l.record call).1.toList ∧
      (call ≠ .clear → (l.record call).2.cleared = l.cleared) := by
  -- what holds of a call that posts and returns nothing
  have hnothing : l.postings = l.postings ++ [] ∧
      l.returned.map (·.item) = l.returned.map (·.item) ++ [] :=
    ⟨(List.append_nil _).symm, (List.append_nil _).symm⟩
  cases call with
  | schedule due item => exact ⟨List.map_append, hnothing.2, fun _ => rfl⟩
  | popDue now =>
    simp only [record]
    split
    · exact ⟨hnothing.1, List.map_append, fun _ => rfl⟩
    · exact ⟨hnothing.1, hnothing.2, fun _ => rfl⟩
  | clear => exact ⟨hnothing.1, hnothing.2, fun hcall => absurd rfl hcall⟩

/-- What a run adds to the history, by induction on its calls. -/
theorem run_adds (l : Ledger α) (calls : List (Call α)) :
    (run record l calls).2.postings = l.postings ++ calls.filterMap Call.posting? ∧
      (run record l calls).2.returned.map (·.item) =
        l.returned.map (·.item) ++ (run record l calls).1.reduceOption ∧
      (.clear ∉ calls → (run record l calls).2.cleared = l.cleared) := by
  induction calls generalizing l with
  | nil => exact ⟨(List.append_nil _).symm, (List.append_nil _).symm, fun _ => rfl⟩
  | cons call calls ih =>
    obtain ⟨hposted, hreturned, hcleared⟩ := l.record_adds call
    obtain ⟨hpostings, hreturns, hclears⟩ := ih (l.record call).2
    refine ⟨hpostings.trans ?_, hreturns.trans ?_, fun hclear => ?_⟩
    · rw [hposted, List.append_assoc]
      cases hcall : call.posting? <;> simp [hcall]
    · rw [hreturned, List.append_assoc]
      cases hanswer : (l.record call).1 <;> simp [run, hanswer, List.reduceOption]
    -- nothing is cleared by the first call, nor by the others
    · obtain ⟨hcall, hcalls⟩ := not_or.mp (mt List.mem_cons.mpr hclear)
      exact (hclears hcalls).trans (hcleared (Ne.symm hcall))

end Ledger

/-! ## A queue and its ledger -/

/-- The queue holds what waits in the ledger. -/
structure Agrees (q : TimerQueue α) (l : Ledger α) : Prop where
  sound : l.Sound
  entries : q.entries.Perm l.waiting
  nextTicket : q.nextTicket = l.posted.length

theorem agrees_start : Agrees ({} : TimerQueue α) {} where
  sound := Ledger.sound_start
  entries := List.Perm.refl _
  nextTicket := rfl

section

variable {q : TimerQueue α} {l : Ledger α}

/-- Queue and ledger have the same entry in front. -/
theorem Agrees.first (h : Agrees q l) : q.first?.map (·.1) = l.first? := by
  cases hq : q.first? with
  | none => -- an empty queue: nothing waits in the ledger either
    have hnone : l.waiting = [] := by
      apply List.Perm.eq_nil
      rw [← first?_eq_none_iff.mp hq]
      exact h.entries.symm
    exact (Ledger.first?_of_empty hnone).symm
  | some taken =>
    obtain ⟨e, q'⟩ := taken
    obtain ⟨hperm, hleast, -⟩ := first?_leaves hq
    apply Eq.symm
    apply h.sound.first?_eq_some_iff.mpr
    refine ⟨h.entries.subset (hperm.subset List.mem_cons_self), fun f hf => ?_⟩
    exact hleast f (h.entries.symm.subset hf)

theorem Agrees.popDue (h : Agrees q l) (now : Int) :
    (q.popDue now).map (·.1) = (l.first?.filter (·.due ≤ now)).map (·.item) := by
  rw [← h.first, TimerQueue.popDue]
  cases q.first? with
  | none => rfl
  | some taken =>
    by_cases hdue : taken.1.due ≤ now
    · simp [Option.filter_some, hdue]
    · simp [Option.filter_some, hdue]

theorem Agrees.schedule (h : Agrees q l) (due : Int) (item : α) :
    Agrees (q.schedule due item) (l.record (.schedule due item)).2 where
  sound := h.sound.schedule due item
  entries := by
    rw [h.sound.waiting_schedule, ← h.nextTicket]
    exact (h.entries.cons _).trans (List.perm_append_singleton _ _).symm
  nextTicket := by
    show q.nextTicket + 1 = (l.posted ++ [_]).length
    rw [h.nextTicket, List.length_append, List.length_singleton]

theorem Agrees.returns (h : Agrees q l) {q' : TimerQueue α} {e : TimerEntry α}
    (hq : q.first? = some (e, q')) (hl : l.first? = some e) :
    Agrees q' { l with returned := l.returned ++ [e] } where
  sound := h.sound.returns hl
  entries := by
    have hwaits : e ∈ l.waiting := (h.sound.first?_eq_some_iff.mp hl).1
    apply List.Perm.cons_inv (a := e)
    exact ((first?_leaves hq).1.trans h.entries).trans (h.sound.waiting_return hwaits).symm
  nextTicket := (first?_leaves hq).2.2.trans h.nextTicket

/-- Every call is answered alike, and keeps queue and ledger in agreement. -/
theorem Agrees.step (h : Agrees q l) (call : Call α) :
    (call.perform q).1 = (l.record call).1 ∧ Agrees (call.perform q).2 (l.record call).2 := by
  cases call with
  | schedule due item => exact ⟨rfl, h.schedule due item⟩
  | clear =>
    refine ⟨rfl, h.sound.clear, ?_, h.nextTicket⟩
    rw [h.sound.waiting_clear]
    exact List.Perm.refl _
  | popDue now =>
    cases hq : q.first? with
    | none =>
      have hl : l.first? = none := by rw [← h.first, hq]; rfl
      have hpop : q.popDue now = none := by rw [TimerQueue.popDue, hq]
      simp only [Call.perform, hpop, Ledger.record, hl, Option.filter_none]
      exact ⟨trivial, h⟩
    | some taken =>
      obtain ⟨e, q'⟩ := taken
      have hl : l.first? = some e := by rw [← h.first, hq]; rfl
      by_cases hdue : e.due ≤ now
      -- the first entry is due for both, or for neither
      · have hpop : q.popDue now = some (e.item, q') := by
          simp only [TimerQueue.popDue, hq, hdue, if_true]
        simp only [Call.perform, hpop, Ledger.record, hl, Option.filter_some, hdue, decide_true,
          if_true]
        exact ⟨trivial, h.returns hq hl⟩
      · have hpop : q.popDue now = none := by simp only [TimerQueue.popDue, hq, hdue, if_false]
        simp only [Call.perform, hpop, Ledger.record, hl, Option.filter_some, hdue, decide_false,
          Bool.false_eq_true, if_false]
        exact ⟨trivial, h⟩

/-- So is every row of calls. -/
theorem run_agrees (h : Agrees q l) (calls : List (Call α)) :
    (run Call.perform q calls).1 = (run Ledger.record l calls).1 ∧
      Agrees (run Call.perform q calls).2 (run Ledger.record l calls).2 := by
  induction calls generalizing q l with
  | nil => exact ⟨rfl, h⟩
  | cons call calls ih =>
    obtain ⟨hanswer, hnext⟩ := h.step call
    obtain ⟨hanswers, hlast⟩ := ih hnext
    refine ⟨?_, hlast⟩
    simp only [run, hanswer, hanswers]

end

/-- The queue that some calls leave, beside the history of these calls. An item is in the history
for each time that it was posted, and leaves it for `returned` once or for `cleared` in
a `clear`. -/
theorem run_stable (calls : List (Call α)) :
    ∃ answers q l, run Call.perform {} calls = (answers, q) ∧
      run Ledger.record {} calls = (answers, l) ∧
      (∀ now, (q.popDue now).map (·.1) = (l.first?.filter (·.due ≤ now)).map (·.item)) ∧
      q.nextDue = l.first?.map (·.due) ∧
      (∀ e, l.first? = some e ↔ e ∈ l.waiting ∧ ∀ f ∈ l.waiting, e.key ≤ f.key) ∧
      (∀ e, l.first? = some e ↔ e ∈ l.waiting ∧ ∀ f ∈ l.waiting, f.rank e ≠ .gt) ∧
      l.postings = calls.filterMap Call.posting? ∧
      l.posted.map (·.ticket) = List.range l.posted.length ∧
      l.returned.map (·.item) = answers.reduceOption ∧
      (l.returned ++ (l.cleared ++ l.waiting)).Perm l.posted ∧
      (.clear ∉ calls → l.cleared = []) ∧
      l.returned.Pairwise fun e f => e.due = f.due → e.ticket < f.ticket := by
  -- the two runs agree at every step, so what the ledger says holds of the queue
  obtain ⟨hanswers, hagrees⟩ := run_agrees agrees_start calls
  obtain ⟨hpostings, hreturns, hclears⟩ := Ledger.run_adds {} calls
  have hsound := hagrees.sound
  refine ⟨_, _, _, rfl, Prod.ext hanswers.symm rfl, hagrees.popDue, ?_,
    fun e => hsound.first?_eq_some_iff, fun e => ?_, hpostings, hsound.tickets, ?_,
    hsound.accounted, hclears, hsound.inTurn⟩
  · rw [nextDue, ← hagrees.first, Option.map_map]
    rfl
  · simp only [TimerEntry.rank_ne_gt_iff]
    exact hsound.first?_eq_some_iff
  · rw [hanswers]
    exact hreturns

/-- Items that are posted between two pops stand behind those that were due with them. -/
example : (run Call.perform ({} : TimerQueue Nat) [.schedule 5 1, .schedule 5 2, .popDue 5,
    .schedule 5 3, .popDue 4, .popDue 5, .popDue 6, .popDue 7]).1 =
      [none, none, some 1, none, none, some 2, some 3, none] := by decide

end TimerQueue

end Playout
