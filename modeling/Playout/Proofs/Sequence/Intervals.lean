import Mathlib.Data.List.Infix
import Playout.Proofs.Sequence.Reports

/-!
# The figures of an interval

The extender keeps totals in 32 bits, and what they were at the last report. A report, or a look at
the figures, subtracts the one from the other. However packets, reports and looks follow each other,

    expected_span     what is expected is the span from the first number to the highest
    Grows.span_le     the span never becomes smaller
    marks_of_opens    an interval is measured from the last report, or from the start

as long as there are numbers left: the span is cut to 32 bits, and the one that does not fit is that
of a stream which began with number 0 and has used them all. `expected` starts over there.
-/

namespace Playout

namespace Extender

/-! ## Events -/

/-- What happens to an extender. -/
inductive Event where
  | packet (wire : UInt16)
  | report
  | peek
deriving DecidableEq, Inhabited, Repr

/-- What it answers. -/
inductive Answer where
  | number (n : Option SeqNumber)
  | figures (r : Reception)
deriving DecidableEq, Inhabited, Repr

def Event.perform (x : Extender) : Event → Answer × Extender
  | packet wire => (.number (x.extend wire).1, (x.extend wire).2)
  | report => (.figures x.report.1, x.report.2)
  | peek => (.figures x.peek, x)

/-- An extender after some events. -/
def following (x : Extender) (events : List Event) : Extender :=
  events.foldl (fun x event => (event.perform x).2) x

/-- A new extender after some events. -/
def after (events : List Event) : Extender := following {} events

/-- Every event with its answer. -/
def answers (x : Extender) : List Event → List (Event × Answer)
  | [] => []
  | event :: events => (event, (event.perform x).1) :: answers (event.perform x).2 events

/-- The events that can change anything. -/
def calls (events : List Event) : List Call :=
  events.filterMap fun event =>
    match event with
    | .packet wire => some (.packet wire)
    | .report => some .report
    | .peek => none

/-- The wire numbers among some events. -/
def arrivals (events : List Event) : List UInt16 := packets (calls events)

theorem following_append (x : Extender) (start since : List Event) :
    x.following (start ++ since) = (x.following start).following since :=
  List.foldl_append

theorem arrivals_append (start since : List Event) :
    arrivals (start ++ since) = arrivals start ++ arrivals since := by
  rw [arrivals, calls, packets, List.filterMap_append, List.filterMap_append]
  rfl

/-- Looks at the figures leave no trace in what comes later. -/
theorem answers_without_peeks (x : Extender) (events : List Event) :
    x.answers (events.filter (· ≠ .peek)) = (x.answers events).filter (·.1 ≠ .peek) ∧
      x.following (events.filter (· ≠ .peek)) = x.following events := by
  induction events generalizing x with
  | nil => exact ⟨rfl, rfl⟩
  | cons event events ih =>
    obtain ⟨hanswers, hstate⟩ := ih (event.perform x).2
    -- a look changes nothing, so it may as well not have been
    by_cases hpeek : event = .peek
    · subst hpeek
      rw [List.filter_cons_of_neg (by simp), answers, List.filter_cons_of_neg (by simp)]
      exact ⟨hanswers, hstate⟩
    · rw [List.filter_cons_of_pos (by simpa using hpeek), answers, answers,
        List.filter_cons_of_pos (by simpa using hpeek), hanswers]
      exact ⟨rfl, hstate⟩

/-- Looks change nothing, so packets and reports are all that counts. -/
theorem following_eq_performAll (x : Extender) (events : List Event) :
    x.following events = x.performAll (calls events) := by
  induction events generalizing x with
  | nil => rfl
  | cons event events ih => cases event <;> exact ih _

theorem report_mem_calls {events : List Event} (h : .report ∈ calls events) :
    .report ∈ events := by
  obtain ⟨event, hmem, hcall⟩ := List.mem_filterMap.mp h
  cases event with
  | report => exact hmem
  | packet wire => cases hcall
  | peek => cases hcall

/-- Apart from the marks of the interval, packets alone make the state. -/
theorem following_eq_marked (x : Extender) (events : List Event) :
    ∃ e r, x.following events = (x.run (arrivals events)).marked e r ∧
      (.report ∉ events → e = x.expectedBefore ∧ r = x.receivedBefore) := by
  rw [following_eq_performAll]
  obtain ⟨e, r, hstate, hmarks⟩ :=
    performAll_eq_marked (calls events) x x.expectedBefore x.receivedBefore
  exact ⟨e, r, hstate, fun hno => hmarks fun hmem => hno (report_mem_calls hmem)⟩

/-! ## Growth -/

/-- The places from the first number to the highest. -/
def span (x : Extender) : Nat :=
  match x.highest? with
  | some top => top.raw.toNat + 1 - x.first.toNat
  | none => 0

/-- The extender after its first packet. -/
def begun (x : Extender) (wire : UInt16) : Extender :=
  { x with
    started := true, first := wire.toUInt32, highest := wire, received := x.received + 1 }

/-- The extender after a packet that moves the highest number up, or repeats it. -/
def moved (x : Extender) (wire : UInt16) : Extender :=
  { x with
    cycles := if wire < x.highest then x.cycles + 1 else x.cycles
    highest := wire, received := x.received + 1 }

/-- All that a packet can change. -/
theorem extend_changes (x : Extender) (wire : UInt16) :
    (x.extend wire).2 = x ∨ (x.started = false ∧ (x.extend wire).2 = x.begun wire) ∨
      (x.started = true ∧ (x.extend wire).2 = x.moved wire) := by
  unfold extend
  cases hstarted : x.started with
  | false => exact Or.inr (Or.inl ⟨rfl, rfl⟩)
  | true =>
    dsimp only
    split
    · contradiction
    -- a new number moves the highest one, a jump and a late one change nothing
    · split
      · exact Or.inr (Or.inr ⟨rfl, by rw [moved, hstarted]⟩)
      · split
        · exact Or.inl rfl
        · split <;> exact Or.inl rfl

/-- What holds after at most `n` packets. -/
structure Within (x : Extender) (n : Nat) : Prop where
  received_le : x.received.toNat ≤ n
  cycles_le : x.cycles.toNat ≤ n
  first_le : x.first.toNat ≤ x.position
  idle : x.started = false → x.highest = 0

/-- One extender is the other one later. -/
structure Grows (x y : Extender) : Prop where
  position_le : x.position ≤ y.position
  received_le : x.received.toNat ≤ y.received.toNat
  started : x.started = true → y.started = true ∧ y.first = x.first

theorem Grows.refl (x : Extender) : x.Grows x := ⟨Nat.le_refl _, Nat.le_refl _, fun h => ⟨h, rfl⟩⟩

/-- Growth upon growth. -/
theorem Grows.trans {x y z : Extender} (hxy : x.Grows y) (hyz : y.Grows z) : x.Grows z where
  position_le := Nat.le_trans hxy.position_le hyz.position_le
  received_le := Nat.le_trans hxy.received_le hyz.received_le
  started h := by
    obtain ⟨hy, hfirst⟩ := hxy.started h
    obtain ⟨hz, hsame⟩ := hyz.started hy
    exact ⟨hz, hsame.trans hfirst⟩

theorem within_new : ({} : Extender).Within 0 :=
  ⟨Nat.le_refl 0, Nat.le_refl 0, Nat.le_refl 0, fun _ => rfl⟩

namespace Within

variable {x : Extender} {n : Nat}

/-- A weaker bound. -/
theorem mono {m : Nat} (h : x.Within n) (hm : n ≤ m) : x.Within m where
  received_le := Nat.le_trans h.received_le hm
  cycles_le := Nat.le_trans h.cycles_le hm
  first_le := h.first_le
  idle := h.idle

section Step

variable (h : x.Within n) (wire : UInt16) (hn : n + 1 < 2 ^ 32)
include h hn

/-- With fewer than `2 ^ 32` packets their count does not start over. -/
theorem toNat_received : (x.received + 1).toNat = x.received.toNat + 1 :=
  toNat_add_one (Nat.lt_of_le_of_lt (Nat.succ_le_succ h.received_le) hn)

/-- The first packet. -/
theorem begun (hidle : x.started = false) :
    (x.begun wire).Within (n + 1) ∧ x.Grows (x.begun wire) := by
  -- an extender that is idle has counted nothing but its cycles
  have hposition : x.position ≤ x.cycles.toNat * 65536 + wire.toNat := by
    unfold position
    rw [h.idle hidle]
    exact Nat.add_le_add_left (Nat.zero_le _) _
  constructor
  · exact {
      received_le := (h.toNat_received hn).trans_le (Nat.succ_le_succ h.received_le)
      cycles_le := Nat.le_succ_of_le h.cycles_le
      first_le := Nat.le_add_left _ _
      idle := nofun }
  · exact {
      position_le := hposition
      received_le := (Nat.le_succ _).trans_eq (h.toNat_received hn).symm
      started := fun hstarted => by rw [hidle] at hstarted; cases hstarted }

/-- A packet that moves the highest number up never moves the position back. -/
theorem moved (hstarted : x.started = true) :
    (x.moved wire).Within (n + 1) ∧ x.Grows (x.moved wire) := by
  have hcycles : (x.moved wire).cycles.toNat =
      if wire < x.highest then x.cycles.toNat + 1 else x.cycles.toNat :=
    toNat_next_cycles wire (Nat.lt_of_le_of_lt (Nat.succ_le_succ h.cycles_le) hn)
  -- the new number is ahead of the old one, across the cycles
  have hposition : x.position ≤ (x.moved wire).position := by
    show x.position ≤ (x.moved wire).cycles.toNat * 65536 + wire.toNat
    rw [hcycles, ← position_add_ahead]
    exact Nat.le_add_right _ _
  constructor
  · exact {
      received_le := (h.toNat_received hn).trans_le (Nat.succ_le_succ h.received_le)
      cycles_le := by
        have := h.cycles_le
        rw [hcycles]
        split <;> omega
      first_le := h.first_le.trans hposition
      idle := fun hidle => by cases hstarted.symm.trans hidle }
  · exact {
      position_le := hposition
      received_le := (Nat.le_succ _).trans_eq (h.toNat_received hn).symm
      started := fun hstarted => ⟨hstarted, rfl⟩ }

/-- A packet keeps the bounds, and nothing becomes smaller. -/
theorem extend : (x.extend wire).2.Within (n + 1) ∧ x.Grows (x.extend wire).2 := by
  obtain hsame | ⟨hidle, hbegun⟩ | ⟨hstarted, hmoved⟩ := x.extend_changes wire
  · rw [hsame]
    exact ⟨h.mono (Nat.le_succ n), Grows.refl x⟩
  · rw [hbegun]
    exact h.begun wire hn hidle
  · rw [hmoved]
    exact h.moved wire hn hstarted

end Step

/-- Any packets, by induction, while they are fewer than `2 ^ 32`. -/
theorem run (h : x.Within n) (wires : List UInt16) (hn : n + wires.length < 2 ^ 32) :
    (x.run wires).Within (n + wires.length) ∧ x.Grows (x.run wires) := by
  induction wires generalizing x n with
  | nil => exact ⟨h, Grows.refl x⟩
  | cons wire wires ih =>
    rw [List.length_cons, Nat.add_comm wires.length, ← Nat.add_assoc] at hn ⊢
    obtain ⟨hwithin, hgrows⟩ := h.extend wire (by omega)
    obtain ⟨hwithin, hlater⟩ := ih hwithin hn
    exact ⟨hwithin, hgrows.trans hlater⟩

end Within

/-! ## The span -/

section Span

variable {x y : Extender}

/-- While 32 bits hold the position, it is the highest number. -/
theorem highest?_eq_some (hstarted : x.started = true) (hfits : x.position < 2 ^ 32) :
    ∃ top, x.highest? = some top ∧ top.raw.toNat = x.position := by
  have hcycles : x.cycles.toNat < 65536 := by
    unfold position at hfits
    omega
  exact Option.map_eq_some_iff.mp (highest?_of_started hstarted hcycles)

theorem span_of_started (hstarted : x.started = true) (hfits : x.position < 2 ^ 32) :
    x.span = x.position + 1 - x.first.toNat := by
  obtain ⟨top, htop, hraw⟩ := highest?_eq_some hstarted hfits
  unfold span
  rw [htop, ← hraw]

theorem span_of_idle (hidle : x.started = false) : x.span = 0 := by
  unfold span highest?
  rw [hidle]
  rfl

/-- The first number stays, and the highest goes up. -/
theorem Grows.span_le (h : x.Grows y) (hfits : y.position < 2 ^ 32) : x.span ≤ y.span := by
  cases hstarted : x.started with
  | false =>
    rw [span_of_idle hstarted]
    exact Nat.zero_le _
  | true =>
    obtain ⟨hy, hfirst⟩ := h.started hstarted
    have hle := h.position_le
    rw [span_of_started hstarted (by omega), span_of_started hy hfits, hfirst]
    omega

/-- What is expected is the span, as far as 32 bits hold it. -/
theorem expected_span (hfits : x.position < 2 ^ 32) (hfirst : x.first.toNat ≤ x.position) :
    x.expected.toNat = x.span % 2 ^ 32 := by
  cases hstarted : x.started with
  | false =>
    rw [span_of_idle hstarted]
    unfold expected highest?
    rw [hstarted]
    rfl
  | true =>
    obtain ⟨top, htop, hraw⟩ := highest?_eq_some hstarted hfits
    -- the first number is not above the highest, so the difference does not wrap
    have hle : x.first ≤ top.raw := UInt32.le_iff_toNat_le.mpr (hfirst.trans_eq hraw.symm)
    unfold expected
    rw [span_of_started hstarted hfits, htop]
    dsimp only
    rw [UInt32.toNat_add, UInt32.toNat_sub_of_le _ _ hle, hraw, Nat.sub_add_comm hfirst]
    rfl

/-- There is one span that 32 bits do not hold. -/
theorem span_full_iff (hfits : x.position < 2 ^ 32) :
    x.span ≤ 2 ^ 32 ∧
      (x.span = 2 ^ 32 ↔ x.first = 0 ∧ x.highest? = some ⟨0xFFFFFFFF⟩) := by
  cases hstarted : x.started with
  | false =>
    have hnone : x.highest? = none := if_neg (by simp [hstarted])
    rw [span_of_idle hstarted, hnone]
    exact ⟨Nat.zero_le _, iff_of_false (by decide) fun h => by cases h.2⟩
  | true =>
    obtain ⟨top, htop, hraw⟩ := highest?_eq_some hstarted hfits
    -- all numbers are in the span only from 0 to the last one
    have hlast : top = ⟨0xFFFFFFFF⟩ ↔ x.position = 2 ^ 32 - 1 := by
      rw [← hraw, SeqNumber.mk.injEq, ← UInt32.toNat_inj]
      rfl
    rw [span_of_started hstarted hfits, htop, Option.some.injEq, hlast, ← UInt32.toNat_inj,
      UInt32.toNat_zero]
    omega

end Span

/-! ## Shares -/

/-- The share of `expected` packets that is lost where `received` of them came, in units
of 1/256. -/
def lossShare (expected received : Nat) : Nat :=
  if expected = 0 ∨ expected ≤ received then 0
  else min 255 (256 * (expected - received) / expected)

/-- The share that is reported is that of the two counts. -/
theorem lossFraction_toNat (expected received : UInt32) :
    (lossFraction expected received).toNat = lossShare expected.toNat received.toNat := by
  unfold lossFraction lossShare
  by_cases hzero : expected = 0
  · subst hzero
    rw [if_pos rfl, UInt32.toNat_zero, if_pos (Or.inl rfl)]
    rfl
  -- from here on the quotient is one of naturals, cut to 255
  · have hnat : expected.toNat ≠ 0 := fun h => hzero (UInt32.toNat_inj.mp h)
    rw [if_neg hzero, UInt8.toNat_ofNat_of_lt' (show min _ 255 < 256 by omega), Nat.min_comm,
      Nat.mul_comm]
    split
    · next h =>
      rw [Nat.sub_eq_zero_of_le (h.resolve_left hnat), Nat.mul_zero, Nat.zero_div]
      rfl
    · rfl

/-! ## Intervals -/

/-- An interval begins here: at the start, or with a report. -/
def Opens (start : List Event) : Prop := start = [] ∨ start.getLast? = some .report

instance (start : List Event) : Decidable (Opens start) := inferInstanceAs (Decidable (_ ∨ _))

/-- The marks of the interval are the totals at its beginning. -/
theorem marks_of_opens {start since : List Event} (hopens : Opens start)
    (hno : .report ∉ since) :
    (after (start ++ since)).expectedBefore = (after start).expected ∧
      (after (start ++ since)).receivedBefore = (after start).received := by
  -- at the start both are zero, and a report makes them equal
  have hstart : (after start).expectedBefore = (after start).expected ∧
      (after start).receivedBefore = (after start).received := by
    obtain rfl | hlast := hopens
    · exact ⟨rfl, rfl⟩
    · obtain ⟨before, rfl⟩ := List.getLast?_eq_some_iff.mp hlast
      rw [after, following_append]
      exact ⟨rfl, rfl⟩
  -- without a report the marks stay as they are
  obtain ⟨e, r, hstate, hmarks⟩ := following_eq_marked (after start) since
  obtain ⟨rfl, rfl⟩ := hmarks hno
  have hsince : after (start ++ since) = ((after start).run (arrivals since)).marked
      (after start).expectedBefore (after start).receivedBefore :=
    (following_append {} start since).trans hstate
  rw [hsince]
  exact hstart

/-- The marks of an interval are no part of what grows. -/
theorem grows_marked {x y : Extender} (h : x.Grows y) (e r : UInt32) : x.Grows (y.marked e r) :=
  ⟨h.position_le, h.received_le, h.started⟩

/-- What holds of a run holds with reports and looks between the packets. -/
theorem Within.following {x : Extender} {n : Nat} (h : x.Within n) (events : List Event)
    (hn : n + (arrivals events).length < 2 ^ 32) :
    (x.following events).Within (n + (arrivals events).length) ∧ x.Grows (x.following events) := by
  obtain ⟨e, r, hstate, -⟩ := following_eq_marked x events
  obtain ⟨hwithin, hgrows⟩ := h.run (arrivals events) hn
  rw [hstate]
  exact ⟨⟨hwithin.received_le, hwithin.cycles_le, hwithin.first_le, hwithin.idle⟩,
    grows_marked hgrows e r⟩

section Run

variable {events : List Event} (hfew : (arrivals events).length < 2 ^ 32)
include hfew

/-- The first packet makes the first number. -/
theorem first_of_arrivals {wire : UInt16} (hwire : wire ∈ (arrivals events).head?) :
    (after events).first = wire.toUInt32 := by
  obtain ⟨rest, harrivals⟩ := List.head?_eq_some_iff.mp hwire
  obtain ⟨e, r, hstate, -⟩ := following_eq_marked {} events
  rw [harrivals, List.length_cons, Nat.add_comm] at hfew
  obtain ⟨-, hgrows⟩ := (within_new.extend wire (by decide)).1.run rest hfew
  rw [after, hstate, harrivals]
  exact (hgrows.started rfl).2

variable (hfits : (after events).position < 2 ^ 32)
include hfits

/-- At every moment of a run the totals are right, and not above those at its end. -/
theorem totals_of_prefix {start : List Event} (hstart : start <+: events) :
    (after start).expected.toNat = (after start).span % 2 ^ 32 ∧
      (after start).span ≤ (after events).span ∧
      (after start).received ≤ (after events).received := by
  -- the run up to this moment, and then the rest of it, which only adds
  obtain ⟨since, rfl⟩ := hstart
  have hend : after (start ++ since) = (after start).following since :=
    following_append {} start since
  rw [arrivals_append, List.length_append] at hfew
  obtain ⟨hwithin, -⟩ := within_new.following start (by omega)
  rw [Nat.zero_add] at hwithin
  obtain ⟨-, hgrows⟩ := hwithin.following since hfew
  rw [hend] at hfits ⊢
  exact ⟨expected_span (Nat.lt_of_le_of_lt hgrows.position_le hfits) hwithin.first_le,
    hgrows.span_le hfits, UInt32.le_iff_toNat_le.mpr hgrows.received_le⟩

/-- The share that is lost is that of what was expected and came since the interval began. -/
theorem fraction_of_interval {start since : List Event} (hevents : events = start ++ since)
    (hopens : Opens start) (hno : .report ∉ since) :
    (after events).peek.fractionLost.toNat =
      lossShare (((after events).span - (after start).span) % 2 ^ 32)
        ((after events).received.toNat - (after start).received.toNat) := by
  obtain ⟨hexpected, -, -⟩ := totals_of_prefix hfew hfits (List.prefix_refl events)
  obtain ⟨hbefore, hle, hreceived⟩ := totals_of_prefix hfew hfits ⟨since, hevents.symm⟩
  obtain ⟨hexpectedBefore, hreceivedBefore⟩ := marks_of_opens hopens hno
  rw [← hevents] at hexpectedBefore hreceivedBefore
  -- each difference is one of totals, and those have not gone down
  have hexpectedSince : ((after events).expected - (after events).expectedBefore).toNat =
      ((after events).span - (after start).span) % 2 ^ 32 := by
    rw [hexpectedBefore, UInt32.toNat_sub, hexpected, hbefore]
    omega
  have hreceivedSince : ((after events).received - (after events).receivedBefore).toNat =
      (after events).received.toNat - (after start).received.toNat := by
    rw [hreceivedBefore, UInt32.toNat_sub_of_le _ _ hreceived]
  rw [← hexpectedSince, ← hreceivedSince]
  exact lossFraction_toNat _ _

end Run

/-- **Figures are those of the interval.** In every run of fewer than `2 ^ 32` packets that stays
below number `2 ^ 32`, what is expected is the span from the first number to the highest, in 32
bits; it never decreases, but that the last span of all is 0. The loss is what was expected and not
received, as far as 24 bits hold it, and the fraction is the share of the loss in what was expected
since the last report, or since the start. A look at the figures changes no later answer. -/
theorem interval_figures (events : List Event) (hfew : (arrivals events).length < 2 ^ 32)
    (hfits : (after events).position < 2 ^ 32) :
    let x := after events
    (x.expected.toNat = x.span % 2 ^ 32 ∧ x.span ≤ 2 ^ 32 ∧
      (x.span = 2 ^ 32 ↔ x.first = 0 ∧ x.highest? = some ⟨0xFFFFFFFF⟩)) ∧
    (∀ wire ∈ (arrivals events).head?, x.first = wire.toUInt32) ∧
    (∀ start, start <+: events →
      (after start).span ≤ x.span ∧ (after start).received ≤ x.received ∧
      (x.span < 2 ^ 32 → (after start).expected ≤ x.expected)) ∧
    (∀ ask ∈ [Event.report, .peek], (ask.perform x).1 = .figures x.peek) ∧
    x.peek.cumulativeLost = clampLost ((x.expected.toNat : Int) - x.received.toNat) ∧
    (∀ start since, events = start ++ since → Opens start → .report ∉ since →
      x.peek.fractionLost.toNat =
        lossShare ((x.span - (after start).span) % 2 ^ 32)
          (x.received.toNat - (after start).received.toNat)) ∧
    answers {} (events.filter (· ≠ .peek)) = (answers {} events).filter (·.1 ≠ .peek) := by
  intro x
  obtain ⟨hexpected, -, -⟩ := totals_of_prefix hfew hfits (List.prefix_refl events)
  obtain ⟨hspan, hfull⟩ := span_full_iff hfits
  refine ⟨⟨hexpected, hspan, hfull⟩, fun wire hwire => first_of_arrivals hfew hwire, ?_, ?_, rfl,
    fun start since hevents => fraction_of_interval hfew hfits hevents,
    (answers_without_peeks {} events).1⟩
  -- what was before is no more than what is now
  · intro start hstart
    obtain ⟨hbefore, hle, hreceived⟩ := totals_of_prefix hfew hfits hstart
    refine ⟨hle, hreceived, fun hroom => ?_⟩
    have hlt : (after events).span < 2 ^ 32 := hroom
    rw [UInt32.le_iff_toNat_le, hbefore, hexpected]
    omega
  -- a report and a look answer the same
  · intro ask hask
    obtain rfl | rfl : ask = .report ∨ ask = .peek := by simpa using hask
    · rfl
    · rfl

/-- A wrap with a gap, a report, a number repeated twice, and another gap. -/
def gapsAndRepeats : List Event :=
  [.packet 65534, .packet 1, .peek, .report, .packet 1, .packet 1, .peek, .packet 5]

/-- Of the four that are expected since the report three have come. -/
theorem gaps_and_repeats_figures :
    (arrivals gapsAndRepeats).length < 2 ^ 32 ∧ (after gapsAndRepeats).position < 2 ^ 32 ∧
      (after gapsAndRepeats).expected.toNat = 8 ∧
      (after gapsAndRepeats).peek.cumulativeLost = 3 ∧
      (after gapsAndRepeats).peek.fractionLost.toNat = lossShare 4 3 ∧ lossShare 4 3 = 64 := by
  have hfew : (arrivals gapsAndRepeats).length < 2 ^ 32 := by decide
  have hfits : (after gapsAndRepeats).position < 2 ^ 32 := by decide
  obtain ⟨⟨hexpected, -⟩, -, -, -, hlost, hfraction, -⟩ :=
    interval_figures gapsAndRepeats hfew hfits
  exact ⟨hfew, hfits, hexpected, hlost,
    hfraction (gapsAndRepeats.take 4) (gapsAndRepeats.drop 4) rfl (by decide) (by decide), rfl⟩

/-! ## The end of the numbers -/

/-- `n` steps of the greatest length that is accepted, and a last one. -/
def climb (m last : Nat) : Nat → List Nat
  | 0 => [m + last]
  | n + 1 => (m + 2999) :: climb (m + 2999) last n

@[simp] theorem length_climb (m last n : Nat) : (climb m last n).length = n + 1 := by
  induction n generalizing m with
  | zero => rfl
  | succ n ih => exact congrArg Nat.succ (ih _)

/-- A position at most 2999 ahead is the new highest. -/
theorem raise_add {m k : Nat} (h : k ≤ 2999) : Near m (m + k) ∧ raise m (m + k) = m + k := by
  have hnear : Near m (m + k) := ⟨by omega, Nat.add_le_add_left h m⟩
  rw [raise, if_pos hnear]
  exact ⟨hnear, Nat.max_eq_right (Nat.le_add_right m k)⟩

/-- Such steps are a stream, and their last position is the highest. -/
theorem stream_climb {m last n : Nat} (hlast : last ≤ 2999) (h : m + 2999 * n + last < 2 ^ 32) :
    Stream m (climb m last n) ∧ highestOf m (climb m last n) = m + 2999 * n + last := by
  induction n generalizing m with
  | zero =>
    obtain ⟨hnear, hraise⟩ := raise_add (m := m) hlast
    exact ⟨⟨h, Or.inl hnear, trivial⟩, hraise⟩
  | succ n ih =>
    obtain ⟨hnear, hraise⟩ := raise_add (m := m) (Nat.le_refl 2999)
    -- the first step of the climb, and a climb from there
    have hsum : m + 2999 * (n + 1) = m + 2999 + 2999 * n := by omega
    rw [hsum] at h ⊢
    obtain ⟨hstream, htop⟩ := ih h
    rw [climb, Stream, highestOf, List.foldl_cons, hraise]
    exact ⟨⟨by omega, Or.inl hnear, hstream⟩, htop⟩

/-- The packets of number 0 and of some places after it. -/
def packetsFrom0 (ts : List Nat) : List Event := (0 :: ts).map fun t => .packet (.ofNat t)

theorem arrivals_packetsFrom0 (ts : List Nat) :
    arrivals (packetsFrom0 ts) = (0 :: ts).map .ofNat := by
  rw [arrivals, packets, calls, packetsFrom0, List.filterMap_map, List.filterMap_filterMap,
    ← List.filterMap_eq_map]
  rfl

/-- From number 0 on, one more is expected than the highest place, in 32 bits. -/
theorem expected_packetsFrom0 {ts : List Nat} (hfew : ts.length + 1 < 2 ^ 32)
    (hstream : Stream 0 ts) :
    (arrivals (packetsFrom0 ts)).length < 2 ^ 32 ∧
      (after (packetsFrom0 ts)).position < 2 ^ 32 ∧
      (after (packetsFrom0 ts)).expected.toNat = (highestOf 0 ts + 1) % 2 ^ 32 := by
  have hat : (after (packetsFrom0 ts)).At (highestOf 0 ts) := by
    rw [after, following, packetsFrom0, List.foldl_map]
    have hzero : 0 < 65536 := by decide
    have hrun := (at_first hzero).run hstream
    rw [run, List.foldl_map] at hrun
    exact hrun
  have harrivals : (arrivals (packetsFrom0 ts)).length < 2 ^ 32 := by
    rw [arrivals_packetsFrom0, List.length_map, List.length_cons]
    exact hfew
  have hfits : (after (packetsFrom0 ts)).position < 2 ^ 32 := hat.position_eq.trans_lt hat.lt
  have hzero : (0 : UInt16) ∈ (arrivals (packetsFrom0 ts)).head? := by
    rw [arrivals_packetsFrom0]
    rfl
  have hfirst : (after (packetsFrom0 ts)).first = 0 := first_of_arrivals harrivals hzero
  -- the first number is 0, so the span has one place more than the highest number says
  have hspan : (after (packetsFrom0 ts)).span = highestOf 0 ts + 1 := by
    rw [span_of_started hat.started hfits, hfirst, hat.position_eq]
    rfl
  obtain ⟨hexpected, -, -⟩ := totals_of_prefix harrivals hfits (List.prefix_refl _)
  exact ⟨harrivals, hfits, hspan ▸ hexpected⟩

/-- At the last number of a stream from number 0 the count starts over. -/
theorem expected_starts_over :
    ¬ ∀ events : List Event, (arrivals events).length < 2 ^ 32 →
      (after events).position < 2 ^ 32 →
      (after events).expected.toNat = (after events).span ∧
      ∀ start, start <+: events → (after start).expected ≤ (after events).expected := by
  intro h
  -- the number of steps is kept general, so that the climb is not evaluated
  obtain ⟨n, hn⟩ : ∃ n, 2999 * n = 4294966867 := ⟨1432133, rfl⟩
  have hroom : 0 + 2999 * n + 428 < 2 ^ 32 := by omega
  obtain ⟨hstream, htop⟩ := stream_climb (by decide) hroom
  have hlength : (climb 0 428 n).length + 1 < 2 ^ 32 := by
    rw [length_climb]
    omega
  have hlast : highestOf 0 (climb 0 428 n) + 1 = 2 ^ 32 := by omega
  obtain ⟨hfew, hfits, hexpected⟩ := expected_packetsFrom0 hlength hstream
  rw [hlast, Nat.mod_self] at hexpected
  obtain ⟨-, hmonotone⟩ := h (packetsFrom0 (climb 0 428 n)) hfew hfits
  have hdecrease := hmonotone [.packet 0] ⟨_, rfl⟩
  rw [UInt32.le_iff_toNat_le, hexpected] at hdecrease
  exact absurd hdecrease (by decide)

end Extender

end Playout
