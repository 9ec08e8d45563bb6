import Playout.Decode.Pipeline
import Playout.Proofs.Lockstep
import Playout.Session.Platform
import Playout.Video.Scheduler

/-!
# Pipelines and renderers depend on their devices alone

Two devices in related states that answer alike keep two equal pipelines equal, and two equal
renderers too: every operation ends in the same way on both sides, and leaves the devices in related
states. It is said once for each operation that a session makes use of before it is torn down.

What an operation is told of the devices, it is told by a call or by a reading. So `Lockstep` of a
device asks for equal answers and equal readings in related states, and nothing else.
-/

namespace Playout

/-- From related states the decoder answers alike, and its states stay related. -/
structure DecoderDevice.Lockstep {δ : Type} (device : DecoderDevice δ) (S : δ → δ → Prop) :
    Prop where
  call : ∀ c d d', S d d' →
    (device.call c d).1 = (device.call c d').1 ∧ S (device.call c d).2 (device.call c d').2
  inputSlots : ∀ d d', S d d' → device.inputSlots d = device.inputSlots d'
  outputSlots : ∀ d d', S d d' → device.outputSlots d = device.outputSlots d'

/-- From related states the output reads alike and takes alike, and its states stay related. -/
structure AudioDevice.Lockstep {α : Type} (device : AudioDevice α) (S : α → α → Prop) : Prop where
  frameCount : ∀ a a', S a a' → device.frameCount a = device.frameCount a'
  frameSize : ∀ a a', S a a' → device.frameSize a = device.frameSize a'
  sampleRate : ∀ a a', S a a' → device.sampleRate a = device.sampleRate a'
  position : ∀ a a', S a a' → device.position a = device.position a'
  write : ∀ bytes a a', S a a' →
    (device.write bytes a).1 = (device.write bytes a').1 ∧
      S (device.write bytes a).2 (device.write bytes a').2

namespace Action

variable {π δ : Type} {S : δ → δ → Prop} {α : Type}

/-- The same in front, and related devices behind it. -/
def Same (S : δ → δ → Prop) (x y : π × δ) : Prop := x.1 = y.1 ∧ S x.2 y.2

/-- What follows on a look at the state may depend on what is in front. -/
theorem lockstep_get_same {f : π × δ → Action (π × δ) α} (hf : ∀ p d d', f (p, d) = f (p, d'))
    (h : ∀ p d, (f (p, d)).Lockstep (Same S)) : (get >>= f).Lockstep (Same S) := by
  apply lockstep_get_bind
  · rintro ⟨p, d⟩ ⟨_, d'⟩ ⟨rfl, -⟩
    exact hf p d d'
  · rintro ⟨p, d⟩
    exact h p d

/-- A change of what is in front. -/
theorem lockstep_first (f : π → π) :
    Lockstep (σ := π × δ) (α := Unit) (fun x => .ok () (f x.1, x.2)) (Same S) := by
  rintro ⟨p, d⟩ ⟨_, d'⟩ ⟨rfl, hd⟩
  exact ⟨rfl, rfl, hd⟩

/-- An action on the devices behind. -/
theorem Lockstep.onSecond {a : Action δ α} (h : a.Lockstep S) :
    (Action.onSecond a : Action (π × δ) α).Lockstep (Same S) :=
  h.focus (fun _ _ hs => hs.2) fun _ _ hs _ _ hd => ⟨hs.1, hd⟩

end Action

namespace Pipeline

open Playout.Action

variable {δ : Type} {S : δ → δ → Prop} {device : DecoderDevice δ}

theorem lockstep_update (f : Pipeline → Pipeline) : (update f : Step δ Unit).Lockstep (Same S) :=
  lockstep_first f

theorem lockstep_moveInput (slot : Nat) (source target : SlotState) (reason : String) :
    (moveInput slot source target reason : Step δ Unit).Lockstep (Same S) :=
  lockstep_get_same (fun _ _ _ => rfl) fun _ _ =>
    (lockstep_ofExcept _).bind fun _ => lockstep_update _

theorem lockstep_moveOutput (slot : Nat) (source target : SlotState) (reason : String) :
    (moveOutput slot source target reason : Step δ Unit).Lockstep (Same S) :=
  lockstep_get_same (fun _ _ _ => rfl) fun _ _ =>
    (lockstep_ofExcept _).bind fun _ => lockstep_update _

theorem lockstep_outputReady (slot : Nat) (pts : Int) (payload : List UInt8) :
    (outputReady slot pts payload : Step δ DecodedOutput).Lockstep (Same S) :=
  (lockstep_moveOutput _ _ _ _).bind fun _ => lockstep_pure _

theorem lockstep_takeRetry : (takeRetry : Step δ Bool).Lockstep (Same S) :=
  lockstep_get_same (fun _ _ _ => rfl) fun _ _ => (lockstep_update _).bind fun _ => lockstep_pure _

section Device

variable (h : device.Lockstep S)
include h

/-- A call is answered alike. -/
theorem lockstep_tell (c : DecoderCall) : (tell device c).Lockstep (Same S) :=
  Lockstep.onSecond (lockstep_use fun d d' hd => h.call c d d' hd)

theorem lockstep_demand (c : DecoderCall) : (demand device c).Lockstep (Same S) := by
  refine lockstep_get_same (fun _ _ _ => rfl) fun p _ => (lockstep_tell h c).bind fun answer => ?_
  cases answer with
  | ok x => exact lockstep_pure _
  | error e => exact lockstep_throw _

/-- The two queues are the same, so the same units are fed until the decoder, which answers alike,
is busy. -/
theorem lockstep_feed (n : Nat) : (feed device n).Lockstep (Same S) := by
  induction n with
  | zero => exact lockstep_pure _
  | succ n ih =>
    refine lockstep_get_same (fun _ _ _ => rfl) fun p d => ?_
    dsimp only
    split
    -- the decoders answer alike, so both runs go on or both stop
    · refine (lockstep_tell h _).bind fun answer => ?_
      split
      · exact lockstep_update _
      · exact lockstep_throw _
      · exact (lockstep_moveInput _ _ _ _).bind fun _ => (lockstep_update _).bind fun _ => ih
    · exact lockstep_pure _

theorem lockstep_fillInputs : (fillInputs device).Lockstep (Same S) :=
  lockstep_get_same (fun _ _ _ => rfl) fun _ _ => lockstep_feed h _

/-- A return is taken, put off or refused alike. -/
theorem lockstep_finishReturn (slot : Nat) (kind : ReturnKind) :
    (finishReturn device slot kind).Lockstep (Same S) := by
  refine lockstep_get_same (fun _ _ _ => rfl) fun p _ => (lockstep_tell h _).bind fun answer => ?_
  split
  · exact lockstep_moveOutput _ _ _ _
  · exact lockstep_update _
  · exact lockstep_throw _

/-- The deferred returns are the same. -/
theorem lockstep_retryReturns (kindOf : ReturnKind → ReturnKind) :
    (retryReturns device kindOf).Lockstep (Same S) :=
  lockstep_get_same (fun _ _ _ => rfl) fun _ _ => (lockstep_update _).bind fun _ =>
    lockstep_forM (fun _ => lockstep_finishReturn h _ _) _

/-- A decoder that starts tells how many slots it has. -/
theorem lockstep_configure (format : MediaFormat) (onSurface : Bool) :
    (configure device format onSurface).Lockstep (Same S) := by
  refine (lockstep_demand h _).bind fun _ => (lockstep_demand h _).bind fun _ => ?_
  apply lockstep_get_bind
  · rintro ⟨p, d⟩ ⟨_, d'⟩ ⟨rfl, hd⟩
    simp only [h.inputSlots d d' hd, h.outputSlots d d' hd]
  · rintro ⟨p, d⟩
    exact lockstep_update _

theorem lockstep_submit (unit : AccessUnit) : (submit device unit).Lockstep (Same S) :=
  (lockstep_update _).bind fun _ => lockstep_fillInputs h

theorem lockstep_inputsAvailable (slots : List Nat) :
    (inputsAvailable device slots).Lockstep (Same S) := by
  refine Lockstep.bind (lockstep_forM (fun slot => ?_) slots) fun _ => lockstep_fillInputs h
  exact (lockstep_moveInput _ _ _ _).bind fun _ => lockstep_update _

theorem lockstep_returnOutput (slot : Nat) (kind : ReturnKind) :
    (returnOutput device slot kind).Lockstep (Same S) :=
  (lockstep_moveOutput _ _ _ _).bind fun _ => lockstep_finishReturn h slot kind

theorem lockstep_retry : (retry device).Lockstep (Same S) :=
  (lockstep_retryReturns h id).bind fun _ => lockstep_fillInputs h

end Device

end Pipeline

/-! ## Renderers -/

/-- An output behind a pipeline. -/
theorem AudioDevice.Lockstep.onSecond {α τ : Type} {device : AudioDevice α} {S : α → α → Prop}
    (h : device.Lockstep S) :
    (device.onSecond : AudioDevice (τ × α)).Lockstep (Action.Same S) where
  frameCount _ _ hs := h.frameCount _ _ hs.2
  frameSize _ _ hs := h.frameSize _ _ hs.2
  sampleRate _ _ hs := h.sampleRate _ _ hs.2
  position _ _ hs := h.position _ _ hs.2
  write bytes _ _ hs := ⟨(h.write bytes _ _ hs.2).1, hs.1, (h.write bytes _ _ hs.2).2⟩

namespace Pacer

open Playout.Action

variable {α : Type} {S : α → α → Prop} {device : AudioDevice α} {give : Nat → Action α Unit}

theorem lockstep_update (f : Pacer → Pacer) : (update f : Step α Unit).Lockstep (Same S) :=
  lockstep_first f

section Device

variable (h : device.Lockstep S)
include h

theorem lockstep_schedule : (schedule device).Lockstep (Same S) := by
  apply lockstep_get_bind
  · rintro ⟨p, a⟩ ⟨_, a'⟩ ⟨rfl, ha⟩
    simp only [delay, inFlight, h.position a a' ha, h.sampleRate a a' ha]
  · rintro ⟨p, a⟩
    exact lockstep_ite (lockstep_pure _) ((lockstep_update _).bind fun _ => lockstep_pure _)

theorem lockstep_enqueue (o : DecodedOutput) : (enqueue device o).Lockstep (Same S) :=
  (lockstep_update _).bind fun _ => lockstep_schedule h

/-- What a pacer offers depends on its own counts and on what it reads from the output. -/
theorem lockstep_offer (bytes : List UInt8) : (offer device bytes).Lockstep (Same S) := by
  apply lockstep_get_bind
  · rintro ⟨p, a⟩ ⟨_, a'⟩ ⟨rfl, ha⟩
    -- the room that is left is counted from readings, which are alike
    have hroom : p.headroom device a = p.headroom device a' := by
      simp only [headroom, inFlight, h.position a a' ha, h.frameCount a a' ha, h.frameSize a a' ha]
    dsimp only
    rw [hroom]
  · rintro ⟨p, a⟩
    refine lockstep_ite (lockstep_pure _) (Lockstep.bind ?_ fun answer => ?_)
    · exact Lockstep.onSecond (lockstep_use fun a a' ha => h.write _ a a' ha)
    · cases answer with
      | ok n => exact lockstep_pure _
      | error reason => exact lockstep_throw _

/-- The writing of a push, by induction on its fuel. -/
theorem lockstep_write (hgive : ∀ slot, (give slot).Lockstep S) (n : Nat) :
    (write device give n).Lockstep (Same S) := by
  induction n with
  | zero => exact lockstep_pure _
  | succ n ih =>
    -- both pacers are the same one, so the queue decides alike
    refine lockstep_get_same (fun _ _ _ => rfl) fun p _ => ?_
    dsimp only
    split
    · exact lockstep_pure _
    · refine (lockstep_offer h _).bind fun taken => ?_
      apply lockstep_get_bind
      · rintro ⟨q, a⟩ ⟨_, a'⟩ ⟨rfl, ha⟩
        simp only [h.frameSize a a' ha]
      · rintro ⟨q, a⟩
        refine (lockstep_update _).bind fun _ => lockstep_ite (lockstep_update _) ?_
        exact (lockstep_update _).bind fun _ => (hgive _).onSecond.bind fun _ => ih

theorem lockstep_push (hgive : ∀ slot, (give slot).Lockstep S) :
    (push device give).Lockstep (Same S) :=
  (lockstep_update _).bind fun _ => lockstep_get_same (fun _ _ _ => rfl) fun _ _ =>
    (lockstep_write h hgive _).bind fun _ => lockstep_schedule h

end Device

end Pacer

namespace Scheduler

open Playout.Action

variable {α : Type} {S : α → α → Prop} {give : Nat → Action α Unit}

theorem lockstep_update (f : Scheduler → Scheduler) : (update f : Step α Unit).Lockstep (Same S) :=
  lockstep_first f

theorem lockstep_present (hgive : ∀ slot, (give slot).Lockstep S) (now : Int) (n : Nat) :
    (present give now n).Lockstep (Same S) := by
  induction n with
  | zero => exact lockstep_pure _
  | succ n ih =>
    refine lockstep_get_same (fun _ _ _ => rfl) fun s _ => ?_
    dsimp only
    split
    · exact lockstep_pure _
    · refine lockstep_ite (lockstep_pure _) ?_
      exact (lockstep_update _).bind fun _ => (hgive _).onSecond.bind fun _ => ih

theorem lockstep_renderDue (hgive : ∀ slot, (give slot).Lockstep S) (now : Int) :
    (renderDue give now).Lockstep (Same S) := by
  refine (lockstep_update _).bind fun _ => lockstep_get_same (fun _ _ _ => rfl) fun _ _ => ?_
  refine (lockstep_present hgive now _).bind fun _ => ?_
  rintro ⟨s, a⟩ ⟨_, a'⟩ ⟨rfl, ha⟩
  exact ⟨rfl, rfl, ha⟩

end Scheduler

end Playout
