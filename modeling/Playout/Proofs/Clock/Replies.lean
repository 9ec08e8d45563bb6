import Mathlib.Data.List.Range
import Playout.Proofs.Clock.Client
import Playout.Proofs.Ntp.Packet

/-!
# Replies that come too late

An exchange takes the oldest datagram that its socket has not read, and does not ask which request
it answers. So a reply that comes when its exchange has given up is taken by the next one, and from
then on each exchange may read the reply to the one before. A `Traffic` says which replies come
when; `heard` is what each exchange reads, and `sample` the estimate that it makes of it.

    batch_hears_own_iff : (∀ i < n, ∀ j, t.heard i = some j → j = i) ↔ t.Punctual n

A reply out of its turn shows a short round trip, because it was on its way before the request that
it is taken to answer was sent. So it is likely to be the best of its batch (`lateReply_preferred`).
-/

namespace Playout.Clock

open Ntp

namespace TimeLink

variable {σ : Type} (link : TimeLink σ) {s s' s'' : σ}

/-- The request that an exchange sends at `s`. -/
def stamp (s : σ) : Timestamp := .ofUnixMicros (link.clock s).wall

theorem get_eq (s : σ) : (get : LinkM σ σ) s = .ok s s := rfl

/-- An exchange without a reply. -/
theorem measure_unheard {cause : NetworkError}
    (hsend : link.send (Packet.request (link.stamp s)).toBytes s = (.ok (), s'))
    (hreceive : link.receive s' = (.error cause, s'')) :
    link.measure s = .error (.transport cause) s'' :=
  (bind_ok (get_eq s)).trans
    ((bind_ok (perform_ok hsend)).trans (bind_error (perform_error hreceive)))

/-- An exchange that takes a datagram for its reply. -/
theorem measure_heard {datagram : List UInt8} {reply : Packet}
    (hsend : link.send (Packet.request (link.stamp s)).toBytes s = (.ok (), s'))
    (hreceive : link.receive s' = (.ok datagram, s''))
    (hreply : Packet.ofBytes (datagram.take Packet.size) = .ok reply) :
    link.measure s =
      .ok (.ofExchange (link.stamp s) (link.clock s).now (link.clock s'').now reply) s'' := by
  refine (bind_ok (get_eq s)).trans ((bind_ok (perform_ok hsend)).trans ?_)
  refine (bind_ok (perform_ok hreceive)).trans ((bind_ok (get_eq s'')).trans ?_)
  rw [hreply]
  rfl

end TimeLink

/-- An estimate rests on the times of a reply alone. -/
theorem Estimate.ofExchange_masked (request : Timestamp) (sent arrived : Int) (reply : Packet) :
    ofExchange request sent arrived reply.masked = ofExchange request sent arrived reply :=
  rfl

/-- Of two samples the one with the shorter round trip is taken as it is. -/
theorem Estimate.bestOf_pair {a b : Estimate} (h : a.roundTrip ≤ b.roundTrip) :
    bestOf [a, b] = some a := by
  have hranked : ranked [a, b] = [a, b] :=
    List.mergeSort_of_pairwise (by simpa using h)
  have hmean : Interval.mean [a.offset] = some a.offset := by
    simp [Interval.mean]
  -- the mean of one offset is this offset, so nothing is moved
  have hremote : a.remote + (a.offset - a.offset) = a.remote := by
    show Timestamp.mk (a.remote.raw + (a.offset.raw - a.offset.raw).toUInt64) = a.remote
    rw [Int64.sub_self]
    show Timestamp.mk (a.remote.raw + 0) = a.remote
    rw [UInt64.add_zero]
  have hkept : kept [a, b].length = 1 := by simp [kept]
  unfold bestOf
  rw [hranked]
  dsimp only
  rw [hkept, List.take_succ_cons, List.take_zero, List.map_cons, List.map_nil, hmean,
    Option.map_some, hremote]

/-! ## A socket and what reaches it -/

/-- What a batch meets. Requests and exchanges count from 0, and so do the uses of the link:
sending, receiving and pausing take the clock on. -/
structure Traffic where
  /-- What the local clock shows after so many uses of the link -/
  clock : Nat → ClockReading
  /-- What the server sends for each request, but for the time that it echoes -/
  serve : Nat → Packet
  /-- The replies, by the requests that they answer, that come after the exchange before has ended
  and before this one does, in their order -/
  arrivals : Nat → List Nat
  /-- No reply comes before its request was sent. -/
  arrivals_le : ∀ i, ∀ j ∈ arrivals i, j ≤ i

/-- The socket of a batch. -/
structure Socket where
  uses : Nat := 0
  /-- The datagrams that were sent -/
  requests : List (List UInt8) := []
  /-- The replies that have come and are not read, by the requests that they answer -/
  unread : List Nat := []
deriving DecidableEq, Inhabited, Repr

namespace Traffic

variable (t : Traffic)

/-- The server's reply to request `j`, which came in these bytes: it echoes the transmit time. -/
def answer (j : Nat) (request : List UInt8) : Packet :=
  match Packet.ofBytes request with
  | .ok p => { t.serve j with originate := p.transmit }
  | .error _ => t.serve j

/-- The link of a batch: a receive takes the oldest reply that is not read, or times out. -/
def link : TimeLink Socket where
  connect _ _ := (.ok (), {})
  send datagram w :=
    (.ok (), { w with uses := w.uses + 1, requests := w.requests ++ [datagram] })
  receive w :=
    match w.unread ++ t.arrivals (w.requests.length - 1) with
    | [] => (.error (.io "timed out"), { w with uses := w.uses + 1, unread := [] })
    | j :: unread =>
      (.ok (t.answer j (w.requests.getD j [])).toBytes, { w with uses := w.uses + 1, unread })
  pause w := { w with uses := w.uses + 1 }
  clock w := t.clock w.uses

/-! ## What each exchange reads -/

/-- The replies that exchange `i` finds unread. -/
def unread : Nat → List Nat
  | 0 => []
  | i + 1 => (unread i ++ t.arrivals i).tail

/-- The request whose reply exchange `i` reads, if it reads any. -/
def heard (i : Nat) : Option Nat := (t.unread i ++ t.arrivals i).head?

/-- What request `i` carries. -/
def stamp (i : Nat) : Timestamp := .ofUnixMicros (t.clock (3 * i)).wall

def reply (j : Nat) : Packet := { t.serve j with originate := t.stamp j }

/-- The estimate that exchange `i` makes of the reply to request `j`. -/
def sample (i j : Nat) : Estimate :=
  .ofExchange (t.stamp i) (t.clock (3 * i)).now (t.clock (3 * i + 2)).now (t.reply j)

/-- How exchange `i` ends. -/
def outcome (i : Nat) : Except SyncError Estimate :=
  match t.heard i with
  | some j => .ok (t.sample i j)
  | none => .error (.transport (.io "timed out"))

/-- The socket when exchange `i` begins. -/
def before (i : Nat) : Socket where
  uses := 3 * i
  requests := (List.range i).map fun j => (Packet.request (t.stamp j)).toBytes
  unread := t.unread i

/-- The socket when exchange `i` has sent its request. -/
def during (i : Nat) : Socket := { t.before (i + 1) with uses := 3 * i + 1, unread := t.unread i }

/-- The socket when exchange `i` has ended. -/
def after (i : Nat) : Socket := { t.before (i + 1) with uses := 3 * i + 2 }

theorem send_before (i : Nat) :
    t.link.send (Packet.request (t.link.stamp (t.before i))).toBytes (t.before i) =
      (.ok (), t.during i) := by
  have hrequests : (t.before (i + 1)).requests =
      (t.before i).requests ++ [(Packet.request (t.stamp i)).toBytes] := by
    simp only [before, List.range_succ, List.map_append, List.map_cons, List.map_nil]
  have hduring : t.during i = ⟨3 * i + 1, (t.before (i + 1)).requests, t.unread i⟩ := rfl
  rw [hduring, hrequests]
  rfl

theorem receive_nil {w : Socket} (h : w.unread ++ t.arrivals (w.requests.length - 1) = []) :
    t.link.receive w =
      (.error (.io "timed out"), { w with uses := w.uses + 1, unread := [] }) := by
  unfold link
  dsimp only
  rw [h]

theorem receive_cons {w : Socket} {j : Nat} {behind : List Nat}
    (h : w.unread ++ t.arrivals (w.requests.length - 1) = j :: behind) :
    t.link.receive w = (.ok (t.answer j (w.requests.getD j [])).toBytes,
      { w with uses := w.uses + 1, unread := behind }) := by
  unfold link
  dsimp only
  rw [h]

/-- What is unread when an exchange begins answers an earlier request. -/
theorem unread_lt {i j : Nat} (h : j ∈ t.unread i) : j < i := by
  induction i with
  | zero => cases h
  | succ i ih =>
    rcases List.mem_append.mp (List.mem_of_mem_tail h) with h | h
    · exact Nat.lt_succ_of_lt (ih h)
    · exact Nat.lt_succ_of_le (t.arrivals_le i j h)

theorem heard_le {i j : Nat} (h : t.heard i = some j) : j ≤ i := by
  rcases List.mem_append.mp (List.mem_of_mem_head? h) with h | h
  · exact Nat.le_of_lt (t.unread_lt h)
  · exact t.arrivals_le i j h

/-- The server echoes the time of the request. -/
theorem answer_request (j : Nat) :
    t.answer j (Packet.request (t.stamp j)).toBytes = t.reply j := by
  have hread := Packet.ofBytes_toBytes_append (Packet.request (t.stamp j)) []
  rw [List.append_nil] at hread
  unfold answer
  rw [hread]
  rfl

theorem requests_getD {i j : Nat} (h : j ≤ i) : (t.before (i + 1)).requests.getD j [] =
    (Packet.request (t.stamp j)).toBytes := by
  simp [before, List.getD, Nat.lt_succ_of_le h]

/-- One exchange: it sends its request, takes the oldest unread reply, and makes its sample
of it. -/
theorem measure_before (i : Nat) :
    ending t.link.measure (t.before i) = (t.outcome i, t.after i) := by
  have hlength : (t.during i).requests.length - 1 = i := by simp [during, before]
  have hunread (behind : List Nat) (h : (t.unread i ++ t.arrivals i).tail = behind) :
      { t.during i with uses := (t.during i).uses + 1, unread := behind } = t.after i := by
    rw [← h]
    rfl
  cases hqueue : t.unread i ++ t.arrivals i with
  | nil => -- nothing is unread, so it times out
    have hreceive := t.receive_nil (w := t.during i) (by rw [hlength]; exact hqueue)
    rw [hunread [] (by rw [hqueue]; rfl)] at hreceive
    have houtcome : t.outcome i = .error (.transport (.io "timed out")) := by
      simp only [outcome, heard, hqueue, List.head?_nil]
    rw [ending_error (t.link.measure_unheard (t.send_before i) hreceive), houtcome]
  | cons j behind => -- the oldest reply is read, and its bytes are those of the server's packet
    have hheard : t.heard i = some j := by rw [heard, hqueue, List.head?_cons]
    have hrequest : (t.during i).requests.getD j [] = (Packet.request (t.stamp j)).toBytes :=
      t.requests_getD (t.heard_le hheard)
    have hreceive := t.receive_cons (w := t.during i) (by rw [hlength]; exact hqueue)
    rw [hunread behind (by rw [hqueue]; rfl), hrequest, t.answer_request] at hreceive
    have hread := Packet.ofBytes_toBytes_append (t.reply j) []
    rw [List.append_nil, ← List.take_of_length_le (Packet.length_toBytes _).le] at hread
    have houtcome : t.outcome i = .ok (t.sample i j) := by simp only [outcome, hheard]
    rw [ending_ok (t.link.measure_heard (t.send_before i) hreceive hread),
      Estimate.ofExchange_masked, houtcome]
    rfl

/-- The exchanges of a batch, one after the other, by induction on their number. -/
theorem outcomes_before (n i : Nat) :
    (t.link.outcomes n (t.before i)).1 = (List.range' i n).map t.outcome := by
  induction n generalizing i with
  | zero => rfl
  | succ n ih =>
    -- behind the last exchange there is no pause, and nothing left to measure
    have hrest : (t.link.outcomes n (if n = 0 then t.after i else t.link.pause (t.after i))).1 =
        (List.range' (i + 1) n).map t.outcome := by
      by_cases hn : n = 0
      · rw [hn]
        rfl
      · rw [if_neg hn]
        exact ih (i + 1)
    rw [TimeLink.outcomes, t.measure_before, List.range'_succ, List.map_cons, ← hrest]

/-- What the `n` exchanges of a batch make of the replies that they read. -/
def samples (n : Nat) : List Estimate :=
  (List.range n).filterMap fun i => (t.heard i).map (t.sample i)

theorem successes_outcomes (n : Nat) : successes (t.link.outcomes n {}).1 = t.samples n := by
  have houtcomes : (t.link.outcomes n {}).1 = (List.range n).map t.outcome := by
    rw [List.range_eq_range']
    exact t.outcomes_before n 0
  rw [houtcomes, successes, List.filterMap_map, samples]
  refine List.filterMap_congr fun i _ => ?_
  cases hheard : t.heard i <;> simp only [Function.comp, outcome, hheard] <;> rfl

/-- So a batch is combined from its samples. -/
theorem requestBestOf_samples (host : String) (count : Nat) (c : Client) (s : Socket) :
    (ending (Client.requestBestOf t.link host count) (c, s)).1.toOption =
      Estimate.bestOf (t.samples (max count 1)) := by
  have hconnect : t.link.connect host s = (.ok (), {}) := rfl
  obtain ⟨hfailed, hmeasured⟩ := Client.requestBestOf_ok t.link host c hconnect count
  rw [t.successes_outcomes] at hfailed hmeasured
  by_cases hnone : t.samples (max count 1) = []
  · obtain ⟨e, -, hrun⟩ := hfailed hnone
    rw [ending_error hrun, Estimate.bestOf_eq_none_iff.mpr hnone]
    rfl
  · obtain ⟨e, hbest, hrun⟩ := hmeasured hnone
    rw [ending_ok hrun, hbest]
    rfl

/-! ## Whose reply it is -/

/-- During each of `n` exchanges its own reply comes first or nothing does, and only during the last
one may more come behind it. -/
def Punctual (n : Nat) : Prop :=
  ∀ i < n, t.arrivals i = [] ∨
    ∃ behind, t.arrivals i = i :: behind ∧ (behind = [] ∨ i + 1 = n)

variable {t} {n : Nat}

/-- What is left unread is of an exchange before, so the next one would read it. -/
theorem unread_of_own (hown : ∀ i < n, ∀ j, t.heard i = some j → j = i) {i : Nat} (hi : i < n) :
    t.unread i = [] := by
  cases hunread : t.unread i with
  | nil => rfl
  | cons j behind =>
    have hheard : t.heard i = some j := by rw [heard, hunread]; rfl
    have hlt : j < i := t.unread_lt (hunread ▸ List.mem_cons_self)
    exact absurd (hown i hi j hheard) (Nat.ne_of_lt hlt)

/-- If every exchange hears its own reply, none may be left unread for the next one. -/
theorem punctual_of_own (hown : ∀ i < n, ∀ j, t.heard i = some j → j = i) : t.Punctual n := by
  intro i hi
  -- every reply before was its own and has been read
  have hunread := unread_of_own hown hi
  cases harrivals : t.arrivals i with
  | nil => exact .inl rfl
  | cons j behind =>
    have hheard : t.heard i = some j := by rw [heard, hunread, harrivals]; rfl
    refine .inr ⟨behind, by rw [hown i hi j hheard], ?_⟩
    by_cases hlast : i + 1 = n
    · exact .inr hlast
    · have hnext : t.unread (i + 1) = behind := by rw [unread, hunread, harrivals]; rfl
      exact .inl (hnext.symm.trans (unread_of_own hown (by omega)))

theorem Punctual.unread (h : t.Punctual n) {i : Nat} (hi : i < n) : t.unread i = [] := by
  induction i with
  | zero => rfl
  | succ i ih =>
    rw [Traffic.unread, ih (Nat.lt_of_succ_lt hi)]
    -- no reply came, or one that is read at once
    rcases h i (Nat.lt_of_succ_lt hi) with hnone | ⟨behind, hfirst, hbehind | hlast⟩
    · rw [hnone]
      rfl
    · rw [hfirst, hbehind]
      rfl
    · omega

theorem Punctual.own (h : t.Punctual n) {i j : Nat} (hi : i < n) (hheard : t.heard i = some j) :
    j = i := by
  rw [heard, h.unread hi, List.nil_append] at hheard
  rcases h i hi with hnone | ⟨behind, hfirst, -⟩
  · rw [hnone] at hheard
    cases hheard
  · rw [hfirst] at hheard
    exact (Option.some.inj hheard).symm

/-- A batch combines what its exchanges read, each sample made of a request and the oldest reply
that was unread. Each of them is made of the reply to its own request if and only if the traffic is
punctual. -/
theorem batch_hears_own_iff (t : Traffic) (host : String) (count : Nat) (c : Client) (s : Socket) :
    let n := max count 1
    successes (t.link.outcomes n {}).1 =
      (List.range n).filterMap (fun i => (t.heard i).map (t.sample i)) ∧
    (ending (Client.requestBestOf t.link host count) (c, s)).1.toOption =
      Estimate.bestOf ((List.range n).filterMap fun i => (t.heard i).map (t.sample i)) ∧
    ((∀ i < n, ∀ j, t.heard i = some j → j = i) ↔ t.Punctual n) :=
  ⟨t.successes_outcomes _, t.requestBestOf_samples host count c s, punctual_of_own,
    fun h _ hi _ hheard => h.own hi hheard⟩

/-! ## A reply that comes too late -/

/-- A clock that shows sixty-fourths of a second. -/
def tick (n : Nat) : ClockReading :=
  ({ wall := 1704067200000000 } : ClockReading).advance (15625 * n)

/-- Both clocks agree. The first reply comes when its exchange has given up after five seconds, the
second is lost and the third comes in time. -/
def lateReply : Traffic where
  clock uses := tick ([0, 0, 320, 323, 323, 324, 327, 327, 329].getD uses 329)
  serve j :=
    let noted := Timestamp.ofUnixMicros (tick ([1, 325, 328].getD j 328)).wall
    { leap := 0, version := 3, mode := Packet.serverMode, stratum := 1,
      receive := noted, transmit := noted }
  arrivals i := [[], [0], [2]].getD i []
  arrivals_le := by
    intro i j h
    match i with
    | 0 => cases h
    | 1 =>
      have hj : j = 0 := by simpa using h
      omega
    | 2 =>
      have hj : j = 2 := by simpa using h
      omega
    | _ + 3 => cases h

/-- The second exchange reads the first reply. It is the best of its batch, and two and a half
seconds wrong, though the third exchange reads its own reply and finds no offset. -/
theorem lateReply_preferred :
    lateReply.heard 1 = some 0 ∧ lateReply.heard 2 = some 2 ∧
    (ending (Client.requestBestOf lateReply.link "time" 3) ({}, {})).1.toOption =
      some (lateReply.sample 1 0) ∧
    (lateReply.sample 1 0).offset.toMicros = -2515625 ∧
    (lateReply.sample 2 2).offset.toMicros = 0 := by
  refine ⟨by decide, by decide, ?_, by decide +kernel, by decide +kernel⟩
  rw [requestBestOf_samples]
  have hshorter : (lateReply.sample 1 0).roundTrip ≤ (lateReply.sample 2 2).roundTrip := by
    decide +kernel
  exact Estimate.bestOf_pair hshorter

end Traffic

end Playout.Clock
