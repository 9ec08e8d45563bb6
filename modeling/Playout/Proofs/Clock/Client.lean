import Mathlib.Data.List.Basic
import Playout.Clock.Client

/-!
# What a client keeps

A client keeps the estimate of the last call that gave one, and a call that fails changes nothing. A
batch is a row of exchanges, each of which ends in an estimate or in an error (`outcomes`). So a
batch fails only where the connection does or where every exchange does, because `bestOf` finds an
estimate in every batch that has one (`bestOf_eq_none_iff`).
-/

namespace Playout.Clock

/-- How an action ends, and the state that it leaves. -/
def ending {ε σ α : Type} (act : EStateM ε σ α) (s : σ) : Except ε α × σ :=
  match act s with
  | .ok a s => (.ok a, s)
  | .error e s => (.error e, s)

section Ending

variable {ε σ α β : Type} {act : EStateM ε σ α} {next : α → EStateM ε σ β} {a : α} {e : ε}
  {s s' : σ}

theorem ending_ok (h : act s = .ok a s') : ending act s = (.ok a, s') := by
  rw [ending, h]

theorem ending_error (h : act s = .error e s') : ending act s = (.error e, s') := by
  rw [ending, h]

theorem bind_ok (h : act s = .ok a s') : (act >>= next) s = next a s' := by
  show EStateM.bind act next s = _
  unfold EStateM.bind
  rw [h]

theorem bind_error (h : act s = .error e s') : (act >>= next) s = .error e s' := by
  show EStateM.bind act next s = _
  unfold EStateM.bind
  rw [h]

end Ending

/-- The values among some results. -/
def successes {ε α : Type} (results : List (Except ε α)) : List α :=
  results.filterMap fun result =>
    match result with
    | .ok a => some a
    | .error _ => none

/-- The errors among some results. -/
def failures {ε α : Type} (results : List (Except ε α)) : List ε :=
  results.filterMap fun result =>
    match result with
    | .ok _ => none
    | .error e => some e

section Results

variable {ε α : Type} (results : List (Except ε α))

@[simp] theorem successes_ok (a : α) : successes (.ok a :: results) = a :: successes results := rfl

@[simp] theorem successes_error (e : ε) : successes (.error e :: results) = successes results := rfl

@[simp] theorem failures_ok (a : α) : failures (.ok a :: results) = failures results := rfl

@[simp] theorem failures_error (e : ε) : failures (.error e :: results) = e :: failures results :=
  rfl

/-- Where nothing succeeds, every result is an error. -/
theorem eq_failures_of_successes (h : successes results = []) :
    results = (failures results).map .error := by
  induction results with
  | nil => rfl
  | cons result results ih =>
    cases result with
    | ok a => cases h
    | error e => exact congrArg (.error e :: ·) (ih h)

end Results

/-! ## Batches -/

/-- Every batch that is not empty has a best estimate. -/
theorem Estimate.bestOf_eq_none_iff {es : List Estimate} : bestOf es = none ↔ es = [] := by
  have hlength : (ranked es).length = es.length := List.length_mergeSort es
  cases es with
  | nil => exact iff_of_true (by simp [bestOf, ranked]) rfl
  | cons e es =>
    refine iff_of_false (fun hnone => ?_) nofun
    unfold bestOf at hnone
    split at hnone
    · next hempty =>
      rw [hempty] at hlength
      cases hlength
    · next best rest _ => -- the mean of at least one offset exists
      rw [Option.map_eq_none_iff, Ntp.Interval.mean] at hnone
      simp [kept] at hnone

namespace TimeLink

variable {σ : Type} (link : TimeLink σ)

theorem perform_ok {α : Type} {wrap : NetworkError → SyncError} {op : σ → Except NetworkError α × σ}
    {a : α} {s s' : σ} (h : op s = (.ok a, s')) : perform wrap op s = .ok a s' := by
  unfold perform
  rw [h]

theorem perform_error {α : Type} {wrap : NetworkError → SyncError}
    {op : σ → Except NetworkError α × σ} {cause : NetworkError} {s s' : σ}
    (h : op s = (.error cause, s')) : perform wrap op s = .error (wrap cause) s' := by
  unfold perform
  rw [h]

/-- How each of `n` exchanges ends that are made one after the other. -/
def outcomes : Nat → σ → List (Except SyncError Estimate) × σ
  | 0, s => ([], s)
  | n + 1, s =>
    let (result, s) := ending link.measure s
    let (results, s) := outcomes n (if n = 0 then s else link.pause s)
    (result :: results, s)

theorem length_outcomes (n : Nat) (s : σ) : (link.outcomes n s).1.length = n := by
  induction n generalizing s with
  | zero => rfl
  | succ n ih => exact congrArg (· + 1) (ih _)

/-- The definition keeps the estimates and the last error apart; together they are the outcomes. -/
theorem measureMany_eq (n : Nat) (s : σ) : link.measureMany n s =
    ((successes (link.outcomes n s).1, (failures (link.outcomes n s).1).getLast?),
      (link.outcomes n s).2) := by
  -- by induction on the exchanges, each of which adds an estimate or an error in front
  induction n generalizing s with
  | zero => rfl
  | succ n ih =>
    unfold measureMany outcomes ending
    cases hm : link.measure s with
    | ok e s' =>
      dsimp only
      rw [ih, successes_ok, failures_ok]
    | error e s' =>
      dsimp only
      rw [ih, successes_error, failures_error, List.getLast?_cons, Option.or_some]

end TimeLink

namespace Client

variable {σ : Type}

/-! ## What a call does -/

section OnLink

variable {α : Type} {act : LinkM σ α} {c : Client} {s s' : σ}

theorem onLink_ok {a : α} (h : act s = .ok a s') : onLink act (c, s) = .ok a (c, s') := by
  unfold onLink
  dsimp only
  rw [h]

theorem onLink_error {e : SyncError} (h : act s = .error e s') :
    onLink act (c, s) = .error e (c, s') := by
  unfold onLink
  dsimp only
  rw [h]

end OnLink

section Calls

variable (link : TimeLink σ) (host : String) (c : Client) {s s' : σ}

theorem exchange_ok {e : Estimate} (h : link.measure s = .ok e s') :
    exchange link (c, s) = .ok e (⟨some e⟩, s') :=
  bind_ok (onLink_ok h)

theorem exchange_error {e : SyncError} (h : link.measure s = .error e s') :
    exchange link (c, s) = .error e (c, s') :=
  bind_error (onLink_error h)

/-- A call that cannot connect ends at once. -/
theorem connect_error {cause : NetworkError} (h : link.connect host s = (.error cause, s'))
    (next : Unit → ClientM σ Estimate) :
    (onLink (TimeLink.perform .networkUnavailable (link.connect host)) >>= next) (c, s) =
      .error (.networkUnavailable cause) (c, s') :=
  bind_error (onLink_error (TimeLink.perform_error h))

theorem connect_ok (h : link.connect host s = (.ok (), s')) (next : Unit → ClientM σ Estimate) :
    (onLink (TimeLink.perform .networkUnavailable (link.connect host)) >>= next) (c, s) =
      next () (c, s') :=
  bind_ok (onLink_ok (TimeLink.perform_ok h))

/-- What a batch does with the estimates of its exchanges and their last failure. -/
def conclude (outcome : List Estimate × Option SyncError) : ClientM σ Estimate :=
  match Estimate.bestOf outcome.1 with
  | some e => store e
  | none => throw (outcome.2.getD .notSynchronized)

/-- A batch over a connection: it fails only if every exchange does, with the last error. -/
theorem requestBestOf_ok (h : link.connect host s = (.ok (), s')) (count : Nat) :
    let results := (link.outcomes (max count 1) s').1
    let after := (link.outcomes (max count 1) s').2
    (successes results = [] → ∃ e, results.getLast? = some (.error e) ∧
      requestBestOf link host count (c, s) = .error e (c, after)) ∧
    (successes results ≠ [] → ∃ e, Estimate.bestOf (successes results) = some e ∧
      requestBestOf link host count (c, s) = .ok e (⟨some e⟩, after)) := by
  intro results after
  have hbatch : onLink (fun s => .ok (link.measureMany (max count 1) s).1
      (link.measureMany (max count 1) s).2) (c, s') =
      .ok (successes results, (failures results).getLast?) (c, after) := by
    refine onLink_ok ?_
    rw [TimeLink.measureMany_eq]
  have hrun : requestBestOf link host count (c, s) =
      conclude (successes results, (failures results).getLast?) (c, after) :=
    (connect_ok link host c h _).trans (bind_ok hbatch)
  have hlength : results.length = max count 1 := link.length_outcomes _ s'
  constructor
  · intro hnone
    have hfailed := eq_failures_of_successes results hnone
    -- at least one exchange is made, so there is a last error
    have hne : failures results ≠ [] := by
      intro hempty
      rw [hempty] at hfailed
      rw [hfailed] at hlength
      simp at hlength
      omega
    refine ⟨(failures results).getLast hne, ?_, ?_⟩
    · have hlast := congrArg List.getLast? hfailed
      rw [List.getLast?_map, List.getLast?_eq_some_getLast hne] at hlast
      exact hlast
    · rw [hrun, conclude, Estimate.bestOf_eq_none_iff.mpr hnone, List.getLast?_eq_some_getLast hne]
      rfl
  · intro hsome
    obtain ⟨e, he⟩ := Option.ne_none_iff_exists'.mp (mt Estimate.bestOf_eq_none_iff.mp hsome)
    refine ⟨e, he, ?_⟩
    rw [hrun, conclude, he]
    rfl

end Calls

/-! ## Rows of calls -/

/-- A call that asks for the time, over a link of its own. -/
inductive Call (σ : Type) where
  | request (link : TimeLink σ) (host : String)
  | exchange (link : TimeLink σ)
  | requestBestOf (link : TimeLink σ) (host : String) (count : Nat)

def Call.action : Call σ → ClientM σ Estimate
  | request link host => Client.request link host
  | exchange link => Client.exchange link
  | requestBestOf link host count => Client.requestBestOf link host count

/-- Make calls one after the other, whatever they answer. -/
def performAll : List (Call σ) → Client × σ → List (Except SyncError Estimate) × (Client × σ)
  | [], now => ([], now)
  | call :: calls, now =>
    let (answer, now) := ending call.action now
    let (answers, now) := performAll calls now
    (answer :: answers, now)

/-- The client after a call with this answer. -/
def heard (c : Client) : Except SyncError Estimate → Client
  | .ok e => ⟨some e⟩
  | .error _ => c

theorem exchange_hears (link : TimeLink σ) (c : Client) (s : σ) :
    (ending (exchange link) (c, s)).2.1 = c.heard (ending (exchange link) (c, s)).1 := by
  cases h : link.measure s with
  | ok e s' =>
    rw [ending_ok (exchange_ok link c h)]
    rfl
  | error e s' =>
    rw [ending_error (exchange_error link c h)]
    rfl

/-- Whatever is asked, a call keeps the estimate that it answers, and no other. -/
theorem call_hears (call : Call σ) (c : Client) (s : σ) :
    (ending call.action (c, s)).2.1 = c.heard (ending call.action (c, s)).1 := by
  cases call with
  | exchange link => exact exchange_hears link c s
  | request link host =>
    rcases h : link.connect host s with ⟨cause | _, s'⟩
    · have hrun : Client.request link host (c, s) = _ := connect_error link host c h _
      rw [Call.action, ending_error hrun]
      rfl
    -- once it is connected, a request is an exchange
    · have hrun : Client.request link host (c, s) = exchange link (c, s') :=
        connect_ok link host c h _
      have hsame : ending (Client.request link host) (c, s) = ending (exchange link) (c, s') := by
        rw [ending, ending, hrun]
      rw [Call.action, hsame]
      exact exchange_hears link c s'
  | requestBestOf link host count =>
    rcases h : link.connect host s with ⟨cause | _, s'⟩
    · have hrun : Client.requestBestOf link host count (c, s) = _ := connect_error link host c h _
      rw [Call.action, ending_error hrun]
      rfl
    -- a batch that gives nothing fails, any other keeps its best
    · obtain ⟨hfailed, hmeasured⟩ := requestBestOf_ok link host c h count
      by_cases hnone : successes (link.outcomes (max count 1) s').1 = []
      · obtain ⟨e, -, hrun⟩ := hfailed hnone
        rw [Call.action, ending_error hrun]
        rfl
      · obtain ⟨e, -, hrun⟩ := hmeasured hnone
        rw [Call.action, ending_ok hrun]
        rfl

/-- The last estimate that was answered is kept, by induction on the calls. -/
theorem performAll_estimate (calls : List (Call σ)) (c : Client) (s : σ) :
    (performAll calls (c, s)).2.1.estimate =
      (successes (performAll calls (c, s)).1).getLast?.or c.estimate := by
  induction calls generalizing c s with
  | nil => rfl
  | cons call calls ih =>
    have hhears := call_hears call c s
    unfold performAll
    rcases hcall : ending call.action (c, s) with ⟨e | e, c', s'⟩
    · obtain rfl : c' = c := by rw [hcall] at hhears; exact hhears
      exact ih c' s'
    · obtain rfl : c' = ⟨some e⟩ := by rw [hcall] at hhears; exact hhears
      rw [ih, successes_ok, List.getLast?_cons, Option.or_some]
      rfl

/-- What a batch does at `(c, s)`. A connection gives at least one exchange. If all of them fail, so
does the batch, with the last error; else it answers and keeps the best of what they gave. -/
structure BatchFaithful (link : TimeLink σ) (host : String) (count : Nat) (c : Client) (s : σ) :
    Prop where
  unconnected (cause : NetworkError) (s' : σ) : link.connect host s = (.error cause, s') →
    ending (requestBestOf link host count) (c, s) = (.error (.networkUnavailable cause), c, s')
  exchanges (s' : σ) : (link.outcomes (max count 1) s').1.length = max count 1
  failed (s' : σ) : link.connect host s = (.ok (), s') →
    successes (link.outcomes (max count 1) s').1 = [] →
    ∃ e, (link.outcomes (max count 1) s').1.getLast? = some (.error e) ∧
      ending (requestBestOf link host count) (c, s) =
        (.error e, c, (link.outcomes (max count 1) s').2)
  measured (s' : σ) : link.connect host s = (.ok (), s') →
    successes (link.outcomes (max count 1) s').1 ≠ [] →
    ∃ e, Estimate.bestOf (successes (link.outcomes (max count 1) s').1) = some e ∧
      ending (requestBestOf link host count) (c, s) =
        (.ok e, ⟨some e⟩, (link.outcomes (max count 1) s').2)

/-- Every batch is faithful, whatever its link answers. -/
theorem batchFaithful (link : TimeLink σ) (host : String) (count : Nat) (c : Client) (s : σ) :
    BatchFaithful link host count c s where
  unconnected _ _ h := ending_error (connect_error link host c h _)
  exchanges := link.length_outcomes _
  failed s' h hnone := by
    obtain ⟨e, hlast, hrun⟩ := (requestBestOf_ok link host c h count).1 hnone
    exact ⟨e, hlast, ending_error hrun⟩
  measured s' h hsome := by
    obtain ⟨e, hbest, hrun⟩ := (requestBestOf_ok link host c h count).2 hsome
    exact ⟨e, hbest, ending_ok hrun⟩

/-- After any calls a new client has the estimate of the last one that gave any. It can tell the
time and the round trip if there was such a call, and only then. The next call, if it fails, leaves
the client as it is. -/
theorem performAll_keeps_last_success (calls : List (Call σ)) (start : σ) :
    let answers := (performAll calls ({}, start)).1
    let c := (performAll calls ({}, start)).2.1
    let s := (performAll calls ({}, start)).2.2
    c.estimate = (successes answers).getLast? ∧
    (∀ now, (∃ failure, c.remoteMicros now = .error failure) ↔ successes answers = []) ∧
    (c.roundTrip = none ↔ successes answers = []) ∧
    (∀ (call : Call σ) (failure : SyncError), (ending call.action (c, s)).1 = .error failure →
      (ending call.action (c, s)).2.1 = c) ∧
    ∀ link host count, BatchFaithful link host count c s := by
  intro answers c s
  have hestimate : c.estimate = (successes answers).getLast? :=
    (performAll_estimate calls {} start).trans Option.or_none
  -- every reader asks whether there is an estimate, so one equivalence serves them all
  have hnone : c.estimate = none ↔ successes answers = [] := by
    rw [hestimate, List.getLast?_eq_none_iff]
  refine ⟨hestimate, fun now => ?_, ?_, fun call failure h => ?_, fun link host count =>
    batchFaithful link host count c s⟩
  · rw [← hnone]
    unfold remoteMicros
    cases c.estimate with
    | none => exact iff_of_true ⟨_, rfl⟩ rfl
    | some e => exact iff_of_false (fun ⟨_, h⟩ => nomatch h) nofun
  · rw [← hnone]
    exact Option.map_eq_none_iff
  · rw [call_hears, h]
    rfl

end Client

end Playout.Clock
