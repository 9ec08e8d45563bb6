import Playout.Proofs.Receiver.Calls
import Playout.Proofs.Reorder.Stock
import Playout.Proofs.Rtp.Frame
import Playout.Proofs.Sequence.Extender

/-!
# A stream comes out in its order

Packets of a stream arrive out of order and more than once, and units are drained in between. Every
stage of the receiver does its part: a packet is read as it was written, its number is its index in
the stream, and the buffer hands the units out one after the other. `Restoring` is the invariant
over all of them. Delivery has come to some index `e`, and what is written is what came first for
each index up to it:

    Restoring.arrival      a packet that comes keeps it
    Restoring.drain        a drain moves `e` on to an index that has not come
    Restoring.run          so it holds after any calls
    play_restores_order    and after the last drain, `e` is the end of the stream
-/

namespace Playout.Receiver

open Extender (Near)

/-! ## Streams -/

/-- What happens to a receiver. -/
inductive Feed where
  /-- The packet with this index in the stream arrives. -/
  | arrival (index : Nat) (p : RtpPacket)
  /-- Everything due is written out. -/
  | drain (now : Int)
deriving DecidableEq, Inhabited, Repr

namespace Feed

def arrival? : Feed → Option (Nat × RtpPacket)
  | .arrival t p => some (t, p)
  | .drain _ => none

def time? : Feed → Option Int
  | .arrival _ _ => none
  | .drain now => some now

end Feed

def arrivals (feeds : List Feed) : List (Nat × RtpPacket) := feeds.filterMap Feed.arrival?

/-- The indices of the packets, in the order of their arrival. -/
def indices (feeds : List Feed) : List Nat := (arrivals feeds).map (·.1)

/-- The times of the drains. -/
def drains (feeds : List Feed) : List Int := feeds.filterMap Feed.time?

/-- The payload of the first packet that arrived with an index. -/
def firstPayload? (feeds : List Feed) (i : Nat) : Option (List UInt8) :=
  ((arrivals feeds).lookup i).map (·.payload)

/-- A receiver, with an output that takes everything, after one more call. -/
def feed (s : Receiver × BoundedOutput) : Feed → Receiver × BoundedOutput
  | .arrival _ p => ((s.1.accept p.toBytes).2, s.2)
  | .drain now => (s.1.drain BoundedOutput.write now s.2 0).2

def play (grace : Int) (senderSsrc : UInt32) (feeds : List Feed) : Receiver × BoundedOutput :=
  feeds.foldl feed (.new grace senderSsrc, ⟨none, []⟩)

/-- Every index is at most 99 behind and 2999 ahead of the highest one before it. -/
def Steady (highest : Nat) : List Nat → Prop
  | [] => True
  | t :: rest => Near highest t ∧ Steady (max highest t) rest

/-- A first part of a steady stream, and what follows it. -/
theorem Steady.append {highest : Nat} {seen rest : List Nat} (h : Steady highest (seen ++ rest)) :
    Steady highest seen ∧ Steady (seen.foldl max highest) rest := by
  induction seen generalizing highest with
  | nil => exact ⟨trivial, h⟩
  | cons t seen ih =>
    obtain ⟨hseen, hrest⟩ := ih h.2
    exact ⟨⟨h.1, hseen⟩, hrest⟩

/-- The feeds of a stream of one source, with index `a` in time for the first drain. -/
structure Orderly (grace : Int) (ssrc : UInt32) (a : Nat) (feeds : List Feed) : Prop where
  /-- A packet carries the low 16 bits of its index. -/
  numbered : ∀ t p, .arrival t p ∈ feeds → t < 2 ^ 32 ∧ p.sequence = .ofNat t ∧ p.ssrc = ssrc
  first : ∀ t, (indices feeds).head? = some t → t < 65536
  steady : ∀ first rest, indices feeds = first :: rest → Steady first rest
  opening : ∀ before now after, feeds = before ++ .drain now :: after → a ∈ indices before
  /-- The drains lie within less than a grace time of each other. -/
  together : (drains feeds).Pairwise fun s t => t - s < grace ∧ s - t < grace

section Feeds

variable {grace : Int} {ssrc : UInt32} {a t i : Nat} {now : Int} {p : RtpPacket}

/-- Feeds one after the other. -/
theorem indices_append (feeds more : List Feed) :
    indices (feeds ++ more) = indices feeds ++ indices more := by
  unfold indices arrivals
  rw [List.filterMap_append, List.map_append]

theorem drains_append (feeds more : List Feed) :
    drains (feeds ++ more) = drains feeds ++ drains more :=
  List.filterMap_append

/-- The first packet of an index counts. -/
theorem firstPayload?_append (feeds more : List Feed) (i : Nat) :
    firstPayload? (feeds ++ more) i = (firstPayload? feeds i).or (firstPayload? more i) := by
  unfold firstPayload? arrivals
  rw [List.filterMap_append, List.lookup_append]
  cases (feeds.filterMap Feed.arrival?).lookup i <;> rfl

/-- One packet has one index. -/
@[simp] theorem firstPayload?_arrival (t : Nat) (p : RtpPacket) (i : Nat) :
    firstPayload? [.arrival t p] i = if i = t then some p.payload else none := by
  show (List.lookup i [(t, p)]).map (·.payload) = _
  rw [List.lookup_cons]
  split
  · next h => rw [if_pos (by simpa using h)]; rfl
  · next h => rw [if_neg (by simpa using h)]; rfl

/-- A drain brings no packet. -/
theorem firstPayload?_concat_drain (feeds : List Feed) (now : Int) :
    firstPayload? (feeds ++ [.drain now]) = firstPayload? feeds := by
  funext i
  rw [firstPayload?_append]
  exact Option.or_none

/-- An index that has come has a first payload. -/
theorem firstPayload?_isSome_iff {feeds : List Feed} :
    (firstPayload? feeds i).isSome ↔ i ∈ indices feeds := by
  unfold firstPayload? indices
  rw [Option.isSome_map, List.lookup_isSome_iff, List.mem_map]
  exact exists_congr fun x => and_congr_right fun _ => by rw [beq_iff_eq, eq_comm]

/-- What is orderly was so before its last call. -/
theorem Orderly.of_append {feeds more : List Feed} (h : Orderly grace ssrc a (feeds ++ more)) :
    Orderly grace ssrc a feeds where
  numbered := fun t p hmem => h.numbered t p (List.mem_append_left _ hmem)
  first := fun t ht => h.first t (by rw [indices_append, List.head?_append, ht]; rfl)
  steady := fun first rest heq => (h.steady first (rest ++ indices more) (by
    rw [indices_append, heq, List.cons_append])).append.1
  opening := fun before now after heq => h.opening before now (after ++ more) (by
    rw [heq]
    simp)
  together := (List.pairwise_append.mp (drains_append feeds more ▸ h.together)).1

end Feeds

/-! ## The invariant -/

/-- After some feeds, delivery has come to index `e`, and the first payloads up to it
are written. -/
structure Restoring (grace : Int) (ssrc : UInt32) (a e : Nat) (feeds : List Feed)
    (r : Receiver) (out : BoundedOutput) : Prop where
  source : r.mediaSsrc.getD ssrc = ssrc
  unheard : indices feeds = [] → r.extender = {}
  widened : ∀ first rest, indices feeds = first :: rest → r.extender.At (rest.foldl max first)
  stocked : r.buffer.Stocked a e (firstPayload? feeds)
  grace_eq : r.buffer.grace = grace
  /-- The wait window was opened by a drain. -/
  opened : ∀ opened, r.buffer.gapOpened = some opened → opened ∈ drains feeds
  lossless : ∀ first last, .lost first last ∉ r.events
  written : out = ⟨none, (List.range' a (e - a)).flatMap fun i => (firstPayload? feeds i).getD []⟩

namespace Restoring

variable {grace : Int} {ssrc : UInt32} {a e t : Nat} {feeds : List Feed} {r : Receiver}
  {out : BoundedOutput} {now : Int} {p : RtpPacket}

/-- Before any feed. -/
theorem init (grace : Int) (senderSsrc ssrc : UInt32) (a : Nat) :
    Restoring grace ssrc a a [] (.new grace senderSsrc) ⟨none, []⟩ where
  source := rfl
  unheard := fun _ => rfl
  widened := nofun
  stocked := .init grace a
  grace_eq := rfl
  opened := nofun
  lossless := nofun
  written := by rw [Nat.sub_self]; rfl

/-- The number of a packet is its index, and the extender is ready for the next one. -/
theorem widen (h : Restoring grace ssrc a e feeds r out)
    (hfeeds : Orderly grace ssrc a (feeds ++ [.arrival t p])) :
    ∃ n, (r.extender.extend p.sequence).1 = some n ∧ n.raw.toNat = t ∧
      ∀ first rest, indices feeds ++ [t] = first :: rest →
        (r.extender.extend p.sequence).2.At (rest.foldl max first) := by
  obtain ⟨ht, hsequence, -⟩ := hfeeds.numbered t p (by simp)
  have hindices : indices (feeds ++ [.arrival t p]) = indices feeds ++ [t] := indices_append _ _
  rw [hsequence]
  cases hi : indices feeds with
  | nil => -- the first packet: its index is its number
    have hfirst : t < 65536 :=
      hfeeds.first t (by rw [hindices, hi, List.nil_append, List.head?_cons])
    rw [h.unheard hi]
    refine ⟨.ofParts 0 (.ofNat t), rfl, ?_, ?_⟩
    · rw [SeqNumber.toNat_ofParts (by decide), UInt16.toNat_ofNat', Nat.mod_eq_of_lt hfirst]
      exact Nat.zero_add t
    · rintro first rest heq
      cases heq
      exact Extender.at_first hfirst
  | cons first rest => -- any other is near the highest before it
    have hnear : Near (rest.foldl max first) t :=
      (hfeeds.steady first (rest ++ [t]) (by rw [hindices, hi, List.cons_append])).append.2.1
    obtain ⟨hanswer, hat⟩ := (h.widened first rest hi).near ht hnear
    obtain ⟨n, hn, hraw⟩ := Option.map_eq_some_iff.mp hanswer
    refine ⟨n, hn, hraw, ?_⟩
    rintro first' rest' heq
    cases heq
    show Extender.At _ ((rest ++ [t]).foldl max first)
    rw [List.foldl_append]
    exact hat

/-- A packet that comes joins those that wait, unless one with its index has come before. -/
theorem arrival (h : Restoring grace ssrc a e feeds r out)
    (hfeeds : Orderly grace ssrc a (feeds ++ [.arrival t p])) (hlow : a ≤ t) :
    Restoring grace ssrc a e (feeds ++ [.arrival t p]) (r.accept p.toBytes).2 out := by
  obtain ⟨-, -, hssrc⟩ := hfeeds.numbered t p (by simp)
  obtain ⟨n, hn, rfl, hat⟩ := h.widen hfeeds
  -- the packet that is read differs from `p` in its payload type at most
  obtain ⟨q, hparse, hsequence, hssrc', hpayload⟩ : ∃ q, RtpPacket.parse p.toBytes = .ok q ∧
      q.sequence = p.sequence ∧ q.ssrc = ssrc ∧ q.payload = p.payload :=
    ⟨_, p.parse_toBytes, rfl, hssrc, rfl⟩
  rw [← hsequence] at hn hat
  have hpayloads : firstPayload? (feeds ++ [.arrival n.raw.toNat p]) = fun i =>
      (firstPayload? feeds i).or (if i = n.raw.toNat then some q.payload else none) := by
    funext i
    rw [firstPayload?_append, firstPayload?_arrival, hpayload]
  rw [accept_of_extend hparse (by rw [hssrc']; exact h.source) hn]
  refine
    { source := hssrc'
      unheard := fun hnone => ?_
      widened := fun first rest heq => hat first rest ((indices_append _ _).symm.trans heq)
      stocked := hpayloads ▸ h.stocked.insert (u := q.toUnit n 0) hlow
      grace_eq := ?_
      opened := ?_
      lossless := h.lossless
      written := h.written.trans ?_ }
  · rw [indices_append, List.append_eq_nil_iff] at hnone
    cases hnone.2
  · exact (ReorderBuffer.insert_grace _ _).trans h.grace_eq
  · rw [drains_append]
    show ∀ opened, (r.buffer.insert _).2.gapOpened = some opened → _
    rw [ReorderBuffer.insert_gapOpened]
    exact fun opened ho => List.mem_append_left _ (h.opened opened ho)
  · -- what is written came before
    refine congrArg _ (List.flatMap_congr fun i hi => ?_)
    obtain ⟨hfrom, hto⟩ := List.mem_range'_1.mp hi
    have hcame := h.stocked.passed i hfrom (by have := h.stocked.began; omega)
    obtain ⟨bytes, hbytes⟩ := Option.isSome_iff_exists.mp hcame
    rw [hpayloads]
    dsimp only
    rw [hbytes, Option.some_or]

/-- Whatever a turn says, it gives nothing up. -/
theorem lossless_turn (h : Restoring grace ssrc a e feeds r out)
    (hlost : (r.buffer.next now).1.lost? = none) :
    ∀ first last, .lost first last ∉ (r.turn now).events := by
  intro first last hmem
  rcases List.mem_append.mp hmem with hmem | hmem
  · exact h.lossless first last hmem
  · unfold ReorderBuffer.Turn.lost? at hlost
    rw [Option.mem_toList.mp hmem] at hlost
    cases hlost

section Turn

variable (h : Restoring grace ssrc a e feeds r out) (ha : a ∈ indices feeds)
  (hsoon : ∀ s ∈ drains feeds, now - s < grace)
include h ha hsoon

/-- What a turn can do to the buffer. -/
theorem stocked_turn : (r.buffer.next now).1.lost? = none ∧
    (∀ d, (r.buffer.next now).1.delivery = some d → firstPayload? feeds e = some d.unit.payload ∧
      (r.turn now).buffer.Stocked a (e + 1) (firstPayload? feeds)) ∧
    ((r.buffer.next now).1.delivery = none → firstPayload? feeds e = none ∧
      (r.turn now).buffer.Stocked a e (firstPayload? feeds) ∧
      ∀ u ∈ (r.turn now).buffer.pending, e ≤ u.seq.raw.toNat) :=
  h.stocked.turn (firstPayload?_isSome_iff.mpr ha) (ReorderBuffer.next_outcome r.buffer now)
    fun opened ho => h.grace_eq.symm ▸ hsoon opened (h.opened opened ho)

/-- The unit that a turn hands out is the first packet of index `e`. -/
theorem turn_of_some {d : Delivery} (hd : (r.buffer.next now).1.delivery = some d) :
    Restoring grace ssrc a (e + 1) feeds ((r.turn now).wrote d)
      ⟨none, out.written ++ d.unit.payload⟩ := by
  have o := ReorderBuffer.next_outcome r.buffer now
  obtain ⟨hlost, hout, -⟩ := h.stocked_turn ha hsoon
  obtain ⟨hfirst, hstocked⟩ := hout d hd
  refine
    { source := h.source
      unheard := h.unheard
      widened := h.widened
      stocked := hstocked
      grace_eq := o.grace_eq.trans h.grace_eq
      opened := fun opened ho => ?_
      lossless := h.lossless_turn hlost
      written := ?_ }
  -- a turn that hands out closes the wait window
  · exact absurd ((o.gapOpened_of_handsOut (by rw [hd]; rfl)).symm.trans ho) nofun
  · have hlen : e + 1 - a = e - a + 1 := by have := h.stocked.began; omega
    have hlast : a + (e - a) = e := by have := h.stocked.began; omega
    rw [h.written, hlen, List.range'_1_concat, List.flatMap_append, hlast, List.flatMap_singleton,
      hfirst, Option.getD_some]

/-- A turn that hands nothing out waits for index `e`. -/
theorem turn_of_none (hd : (r.buffer.next now).1.delivery = none) :
    Restoring grace ssrc a e (feeds ++ [.drain now]) (r.turn now) out ∧
      firstPayload? feeds e = none ∧ ∀ u ∈ (r.turn now).buffer.pending, e ≤ u.seq.raw.toNat := by
  have o := ReorderBuffer.next_outcome r.buffer now
  obtain ⟨hlost, -, hnone⟩ := h.stocked_turn ha hsoon
  obtain ⟨hfirst, hstocked, hpending⟩ := hnone hd
  have hindices : indices (feeds ++ [.drain now]) = indices feeds :=
    (indices_append _ _).trans (List.append_nil _)
  have hpayloads := firstPayload?_concat_drain feeds now
  refine ⟨?_, hfirst, hpending⟩
  refine
    { source := h.source
      unheard := hindices ▸ h.unheard
      widened := hindices ▸ h.widened
      stocked := hpayloads ▸ hstocked
      grace_eq := o.grace_eq.trans h.grace_eq
      opened := fun opened ho => ?_
      lossless := h.lossless_turn hlost
      written := hpayloads ▸ h.written }
  -- the window stays where it was, or opens now
  rw [drains_append]
  have heq := Option.some.inj (ho.symm.trans (o.gapOpened_of_waits hd))
  cases hbefore : r.buffer.gapOpened with
  | none =>
    rw [hbefore] at heq
    exact List.mem_append_right _ (List.mem_singleton.mpr heq)
  | some opened' =>
    rw [hbefore] at heq
    exact List.mem_append_left _ (heq ▸ h.opened opened' hbefore)

/-- A drain writes out what has come without a gap. -/
theorem drain : ∃ e', Restoring grace ssrc a e' (feeds ++ [.drain now])
      (feed (r, out) (.drain now)).1 (feed (r, out) (.drain now)).2 ∧
    firstPayload? feeds e' = none ∧
    ∀ u ∈ (feed (r, out) (.drain now)).1.buffer.pending, e' ≤ u.seq.raw.toNat := by
  refine drain_ends BoundedOutput.write now
    (P := fun r out => ∃ e, Restoring grace ssrc a e feeds r out)
    (Q := fun r out => ∃ e, Restoring grace ssrc a e (feeds ++ [.drain now]) r out ∧
      firstPayload? feeds e = none ∧ ∀ u ∈ r.buffer.pending, e ≤ u.seq.raw.toNat)
    ?_ ?_ ?_ ⟨e, h⟩ 0
  · rintro r out ⟨e, h⟩ hd
    exact ⟨e, h.turn_of_none ha hsoon hd⟩
  -- the output has no limit, so no write fails
  · rintro r out d e' out' ⟨e, h⟩ - hw
    rw [h.written, BoundedOutput.write_unlimited] at hw
    cases hw
  · rintro r out d out' ⟨e, h⟩ hd hw
    rw [h.written, BoundedOutput.write_unlimited] at hw
    cases hw
    have hturn := h.turn_of_some ha hsoon hd
    rw [h.written] at hturn
    exact ⟨e + 1, hturn⟩

end Turn

end Restoring

/-! ## Whole streams -/

/-- One more feed. -/
theorem play_concat (grace : Int) (senderSsrc : UInt32) (feeds : List Feed) (c : Feed) :
    play grace senderSsrc (feeds ++ [c]) = feed (play grace senderSsrc feeds) c := by
  unfold play
  rw [List.foldl_append, List.foldl_cons, List.foldl_nil]

section Stream

variable {grace : Int} {ssrc : UInt32} {a : Nat} {feeds : List Feed} {now : Int}

/-- At a drain, index `a` has arrived and the drains before it are less than a grace time ago. -/
theorem Orderly.due (h : Orderly grace ssrc a (feeds ++ [.drain now])) :
    a ∈ indices feeds ∧ ∀ s ∈ drains feeds, now - s < grace := by
  refine ⟨h.opening feeds now [] rfl, fun s hs => ?_⟩
  obtain ⟨-, -, hlast⟩ := List.pairwise_append.mp (drains_append feeds [.drain now] ▸ h.together)
  exact (hlast s hs now (List.mem_singleton.mpr rfl)).1

/-- The invariant holds after any feeds, by induction on the last one. -/
theorem Restoring.run (senderSsrc : UInt32) (h : Orderly grace ssrc a feeds)
    (hlow : ∀ t ∈ indices feeds, a ≤ t) :
    ∃ e, Restoring grace ssrc a e feeds (play grace senderSsrc feeds).1
      (play grace senderSsrc feeds).2 := by
  induction feeds using List.reverseRecOn with
  | nil => exact ⟨a, .init grace senderSsrc ssrc a⟩
  | append_singleton feeds c ih =>
    rw [indices_append] at hlow
    obtain ⟨e, he⟩ := ih h.of_append fun t ht => hlow t (List.mem_append_left _ ht)
    rw [play_concat]
    cases c with
    -- what comes keeps the index that delivery has come to, and a drain moves it on
    | arrival t p => exact ⟨e, he.arrival h (hlow t (List.mem_append_right _ List.mem_cons_self))⟩
    | drain now =>
      obtain ⟨ha, hsoon⟩ := h.due
      obtain ⟨e', he', -⟩ := he.drain ha hsoon
      exact ⟨e', he'⟩

/-- **A stream comes out in its order.** Let packets of one source arrive, each with the low bits of
its index, the first index below 65536 and every other at most 99 behind and 2999 ahead of the
highest one before it; let the indices be exactly those from `a` up to but not including `a + n`,
each of them once or more; and let there be drains anywhere after the first arrival of `a`, all less
than a grace time apart, and one of them last. Then the bytes written are, one index after the
other, the payloads of the packets that arrived first with it; nothing is given up; and nothing is
left waiting. -/
theorem play_restores_order (senderSsrc : UInt32) (n : Nat)
    (h : Orderly grace ssrc a (feeds ++ [.drain now]))
    (hall : ∀ i, i ∈ indices feeds ↔ a ≤ i ∧ i < a + n) :
    let s := play grace senderSsrc (feeds ++ [.drain now])
    s.2.written = (List.range' a n).flatMap (fun i => (firstPayload? feeds i).getD []) ∧
      (∀ first last, .lost first last ∉ s.1.events) ∧ s.1.buffer.pending = [] := by
  obtain ⟨e, he⟩ := Restoring.run senderSsrc h.of_append fun t ht => ((hall t).mp ht).1
  obtain ⟨ha, hsoon⟩ := h.due
  obtain ⟨e', he', hnone, hpending⟩ := he.drain ha hsoon
  have hcame : ∀ i, (firstPayload? feeds i).isSome ↔ a ≤ i ∧ i < a + n := fun i =>
    firstPayload?_isSome_iff.trans (hall i)
  have hstocked := firstPayload?_concat_drain feeds now ▸ he'.stocked
  -- delivery has come to an index that has not arrived, and to no index behind the end
  have hend : e' = a + n := by
    have hbegan := hstocked.began
    have hmissing : ¬ (a ≤ e' ∧ e' < a + n) := fun hin => by
      have := (hcame e').mpr hin
      rw [hnone] at this
      cases this
    by_contra hne
    have hpast := (hcame (a + n)).mp (hstocked.passed (a + n) (by omega) (by omega))
    omega
  rw [play_concat]
  refine ⟨?_, he'.lossless, List.eq_nil_iff_forall_not_mem.mpr fun u hu => ?_⟩
  · refine (congrArg BoundedOutput.written he'.written).trans ?_
    rw [hend, Nat.add_sub_cancel_left, firstPayload?_concat_drain]
  · have hlow := hpending u hu
    have hpayload := (hstocked.stock u.seq.raw.toNat u.payload hlow).mpr ⟨u, hu, rfl, rfl⟩
    have hhigh := ((hcame u.seq.raw.toNat).mp (by rw [hpayload]; rfl)).2
    omega

end Stream

/-- Four packets across a wrap, out of order and one of them twice, with drains in between. -/
def wrapping : List Feed :=
  [.arrival 65535 (.plain 96 65535 0 7 [2]), .arrival 65534 (.plain 96 65534 0 7 [1]), .drain 0,
    .arrival 65537 (.plain 96 1 0 7 [4]), .drain 10, .arrival 65534 (.plain 96 65534 0 7 [5]),
    .arrival 65536 (.plain 96 0 0 7 [3])]

/-- These feeds are a stream of one source. -/
theorem orderly_wrapping : Orderly 50 7 65534 (wrapping ++ [.drain 20]) where
  numbered := by
    intro t p hmem
    simp only [wrapping, List.cons_append, List.nil_append, List.mem_cons, List.not_mem_nil,
      or_false, Feed.arrival.injEq, reduceCtorEq, false_or] at hmem
    -- the five datagrams one by one
    rcases hmem with ⟨rfl, rfl⟩ | ⟨rfl, rfl⟩ | ⟨rfl, rfl⟩ | ⟨rfl, rfl⟩ | ⟨rfl, rfl⟩ <;>
      exact ⟨by decide, by decide, rfl⟩
  first := by
    rintro t ht
    obtain rfl : 65535 = t := Option.some.inj ht
    decide
  steady := by
    rintro first rest heq
    obtain ⟨rfl, rfl⟩ : 65535 = first ∧ [65534, 65537, 65534, 65536] = rest := List.cons.inj heq
    simp [Steady, Near]
  opening := by
    rintro (_ | ⟨f, _ | ⟨g, before⟩⟩) now after heq
    · cases heq
    · cases heq
    · obtain ⟨rfl, htail⟩ := List.cons.inj heq
      obtain ⟨rfl, -⟩ := List.cons.inj htail
      simp [indices, arrivals, Feed.arrival?]
  together := by decide

/-- They come out in order, and nothing waits any more. -/
theorem wrapping_restored :
    (∀ i, i ∈ indices wrapping ↔ 65534 ≤ i ∧ i < 65534 + 4) ∧
      (play 50 1 (wrapping ++ [.drain 20])).2.written = [1, 2, 3, 4] ∧
      (play 50 1 (wrapping ++ [.drain 20])).1.buffer.pending = [] := by
  have hall : ∀ i, i ∈ indices wrapping ↔ 65534 ≤ i ∧ i < 65534 + 4 := by
    intro i
    simp [indices, arrivals, Feed.arrival?, wrapping]
    omega
  obtain ⟨hwritten, -, hpending⟩ := play_restores_order 1 4 orderly_wrapping hall
  exact ⟨hall, hwritten, hpending⟩

end Playout.Receiver
