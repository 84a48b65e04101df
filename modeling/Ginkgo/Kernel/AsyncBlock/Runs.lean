import Ginkgo.Kernel.AsyncBlock.Progress
import Ginkgo.Kernel.AsyncBlock.Constraints
import Ginkgo.Kernel.AsyncBlock.Dispatch
import Ginkgo.Kernel.AsyncBlock.Fences

/-!
# Runs of the block queue

A run starts with an empty queue of any size and makes any calls, in any order and with any
arguments.  Its history is what the callers and the driver saw.
-/

namespace Ginkgo.Kernel.AsyncBlock

open Ginkgo.Lib List

inductive Op
  | registerDevice (config : BlockDeviceConfig)
  | submit (nowNs : Nat) (request : RequestSpec)
  | dispatchOne (device : BlockDeviceId) (nowNs : Nat)
  | complete (token : DispatchToken) (status : HardwareStatus)
  | cancel (id : BlockRequestId)
  | expireDeadlines (nowNs : Nat)
  | pollCancel (device : BlockDeviceId)
  | takeCompletion (id : BlockRequestId)
  | resetDevice (device : BlockDeviceId)
  | removeDevice (device : BlockDeviceId)
  | beginShutdown
  | forceShutdown

namespace AsyncBlockQueue

variable {policy : Policy} {s s0 : AsyncBlockQueue} {history : List Event} {op : Op}

/-- One call, with what is seen of it. -/
def exec : Op → AsyncBlockQueue → List Event × AsyncBlockQueue
  | .registerDevice config, s =>
    (registerEvents (s.registerDevice config).1, (s.registerDevice config).2)
  | .submit nowNs request, s =>
    (submitEvents request (s.submit nowNs request).1, (s.submit nowNs request).2)
  | .dispatchOne device nowNs, s =>
    ((s.dispatchOne device nowNs).1.toList.map .dispatched, (s.dispatchOne device nowNs).2)
  | .complete token status, s =>
    (if (s.complete token status).1 = .accepted then [.completed token] else [],
      (s.complete token status).2)
  | .cancel id, s => ([], (s.cancel id).2)
  | .expireDeadlines nowNs, s => ([], (s.expireDeadlines nowNs).2)
  | .pollCancel device, s =>
    ((s.pollCancel device).1.toList.map .cancelling, (s.pollCancel device).2)
  | .takeCompletion id, s =>
    ((s.takeCompletion id).1.toList.map .taken, (s.takeCompletion id).2)
  | .resetDevice device, s =>
    (advanceEvents device (s.resetDevice device).1, (s.resetDevice device).2)
  | .removeDevice device, s =>
    (advanceEvents device (s.removeDevice device).1, (s.removeDevice device).2)
  | .beginShutdown, s => ([], s.beginShutdown)
  | .forceShutdown, s => ((range s.devices.length).flatMap s.forcedEvents, s.forceShutdown)

/-- The call keeps to the policy. -/
def Allowed (policy : Policy) (s : AsyncBlockQueue) : Op → Prop
  | .registerDevice config =>
    (policy.flushes = true → s.RegistersFlushing config) ∧
      (policy.drains = true → s.shutdown ≠ .drained)
  | .dispatchOne _ nowNs => policy.fences = true → s.ExpiryKeepsFences nowNs
  | .cancel id => policy.fences = true → s.CancelKeepsFences id
  | .expireDeadlines nowNs => policy.fences = true → s.ExpiryKeepsFences nowNs
  | .resetDevice _ => policy.drains = true → s.shutdown ≠ .drained
  | .forceShutdown => policy.epochs = true → s.ForceMovesEpochs
  | .submit _ _ | .complete _ _ | .pollCancel _ | .takeCompletion _ | .removeDevice _
  | .beginShutdown => True

theorem allowed_of {s : AsyncBlockQueue} {op : Op} (hfences : policy.fences = false)
    (hflushes : policy.flushes = false) (hdrains : policy.drains = true → s.shutdown ≠ .drained)
    (hepochs : policy.epochs = true → op = .forceShutdown → s.ForceMovesEpochs) :
    Allowed policy s op := by
  have hnot : ∀ {bit : Bool} {P : Prop}, bit = false → bit = true → P := by
    rintro bit P rfl htrue
    cases htrue
  cases op with
  | registerDevice config => exact ⟨hnot hflushes, hdrains⟩
  | resetDevice device => exact hdrains
  | forceShutdown => exact fun h => hepochs h rfl
  | dispatchOne device now | cancel id | expireDeadlines now => exact hnot hfences
  | _ => trivial

theorem allowed_any (s : AsyncBlockQueue) (op : Op) : Allowed .any s op :=
  allowed_of rfl rfl nofun nofun

inductive Step (policy : Policy) : AsyncBlockQueue → List Event → AsyncBlockQueue → Prop
  | call {s : AsyncBlockQueue} (op : Op) (h : Allowed policy s op) :
      Step policy s (exec op s).1 (exec op s).2

/-- A queue that was just built. -/
def Starts (s : AsyncBlockQueue) : Prop :=
  ∃ requestCapacity deviceCapacity config m m',
    tryNew requestCapacity deviceCapacity config m = .ok s m'

/-- The queue after a run with this history. -/
def Run (policy : Policy) (history : List Event) (s : AsyncBlockQueue) : Prop :=
  ∃ s0, Starts s0 ∧ Star (Step policy) s0 history s

/-! ## Runs that are computed -/

instance (t : Table) (slot : RequestSlot) : Decidable (t.LastOf slot) :=
  inferInstanceAs (Decidable (∀ other ∈ t.slots, other.device = slot.device →
    other.sequence < slot.sequence → other.isLive = false))

instance (nowNs : Nat) (s : AsyncBlockQueue) : Decidable (s.ExpiryKeepsFences nowNs) :=
  inferInstanceAs (Decidable (∀ slot ∈ s.slots, expires nowNs slot = true →
    slot.operation.isFence = true → s.table.LastOf slot))

instance (id : BlockRequestId) (s : AsyncBlockQueue) : Decidable (s.CancelKeepsFences id) :=
  decidable_of_iff (∀ index ∈ s.requestIndex id, ∀ slot ∈ s.slots[index]?, slot.isLive = true →
      slot.pendingOutcome = none → slot.operation.isFence = true → s.table.LastOf slot)
    ⟨fun h index slot hindex hslot => h index hindex slot hslot,
      fun h index hindex slot hslot => h index slot hindex hslot⟩

instance (config : BlockDeviceConfig) (s : AsyncBlockQueue) :
    Decidable (s.RegistersFlushing config) :=
  inferInstanceAs (Decidable (s.shutdown = .quiescing → config.supportsFlush = true))

instance (s : AsyncBlockQueue) : Decidable s.ForceMovesEpochs :=
  inferInstanceAs (Decidable (∀ device ∈ s.devices, device.present = true → device.epoch < u32Max))

instance (policy : Policy) (s : AsyncBlockQueue) : (op : Op) → Decidable (Allowed policy s op)
  | .registerDevice config => inferInstanceAs (Decidable
      ((policy.flushes = true → s.RegistersFlushing config) ∧
        (policy.drains = true → s.shutdown ≠ .drained)))
  | .dispatchOne _ nowNs =>
    inferInstanceAs (Decidable (policy.fences = true → s.ExpiryKeepsFences nowNs))
  | .cancel id => inferInstanceAs (Decidable (policy.fences = true → s.CancelKeepsFences id))
  | .expireDeadlines nowNs =>
    inferInstanceAs (Decidable (policy.fences = true → s.ExpiryKeepsFences nowNs))
  | .resetDevice _ => inferInstanceAs (Decidable (policy.drains = true → s.shutdown ≠ .drained))
  | .forceShutdown => inferInstanceAs (Decidable (policy.epochs = true → s.ForceMovesEpochs))
  | .submit _ _ | .complete _ _ | .pollCancel _ | .takeCompletion _ | .removeDevice _
  | .beginShutdown => .isTrue trivial

def execAll : List Op → AsyncBlockQueue → List Event × AsyncBlockQueue
  | [], s => ([], s)
  | op :: ops, s =>
    ((exec op s).1 ++ (execAll ops (exec op s).2).1, (execAll ops (exec op s).2).2)

def AllowedAll (policy : Policy) : List Op → AsyncBlockQueue → Prop
  | [], _ => True
  | op :: ops, s => Allowed policy s op ∧ AllowedAll policy ops (exec op s).2

instance decidableAllowedAll (policy : Policy) :
    (ops : List Op) → (s : AsyncBlockQueue) → Decidable (AllowedAll policy ops s)
  | [], _ => .isTrue trivial
  | op :: ops, s =>
    have := decidableAllowedAll policy ops (exec op s).2
    inferInstanceAs (Decidable (Allowed policy s op ∧ AllowedAll policy ops (exec op s).2))

theorem star_execAll {ops : List Op} (h : AllowedAll policy ops s) :
    Star (Step policy) s (execAll ops s).1 (execAll ops s).2 := by
  induction ops generalizing s with
  | nil => exact .refl s
  | cons op ops ih => exact (Star.single (.call op h.1)).trans (ih h.2)

theorem allowedAll_any (ops : List Op) (s : AsyncBlockQueue) : AllowedAll .any ops s := by
  induction ops generalizing s with
  | nil => trivial
  | cons op ops ih => exact ⟨allowed_any s op, ih _⟩

/-- An empty queue. -/
def fresh (requestCapacity deviceCapacity : Nat) (config : QueueConfig) : AsyncBlockQueue where
  config := config
  slots := replicate requestCapacity (.vacant 1)
  devices := replicate deviceCapacity .empty
  queues := .all []
  inFlightCommands := 0
  shutdown := .running

theorem run_execAll {ops : List Op} (hstarts : Starts s0) (h : AllowedAll policy ops s0) :
    Run policy (execAll ops s0).1 (execAll ops s0).2 :=
  ⟨s0, hstarts, star_execAll h⟩

theorem Starts.eq_fresh (h : Starts s) : ∃ reqCap devCap config,
    s = fresh reqCap devCap config ∧ reqCap < u32Max ∧ devCap < u32Max ∧ config.isValid = true := by
  obtain ⟨reqCap, devCap, config, m, m', hnew⟩ := h
  have hspec : wp (tryNew reqCap devCap config)
      (fun s _ => s = fresh reqCap devCap config ∧ reqCap < u32Max ∧
        devCap < u32Max ∧ config.isValid = true) (fun _ _ => True) m := by
    refine wp_ite (fun _ => wp_throw trivial) fun _ => ?_
    refine wp_ite (fun _ => wp_throw trivial) fun hsize => ?_
    refine wp_ite (fun _ => wp_throw trivial) fun hvalid => ?_
    simp only [not_or, Nat.not_le] at hsize
    simp only [Bool.not_eq_true', Bool.not_eq_false] at hvalid
    iterate 5 refine wp_allocCapacity_bind fun _ => ?_
    exact wp_pure ⟨rfl, hsize.1, hsize.2, hvalid⟩
  have hok := wp_ok hspec hnew
  exact ⟨reqCap, devCap, config, hok⟩

/-! A small queue, with what is asked of it. -/

def smallQueue : AsyncBlockQueue := fresh 4 2 .default

theorem starts_smallQueue : Starts smallQueue := ⟨4, 2, .default, none, none, rfl⟩

def smallDevice : BlockDeviceConfig := ⟨8, 2, true, .dma64⟩

/-- The first device of a queue. -/
def firstDevice : BlockDeviceId := .fromParts 0 1

def oneSector : BlockBuffer where
  byteLen := 512
  segments := [⟨4096, 512⟩]
  kind := .segments
  bounce := none
  count := by decide
  sound := by
    intro segment hmem
    obtain rfl := mem_singleton.mp hmem
    exact ⟨by decide, by decide⟩
  total := rfl
  positive := by decide
  bounded := by decide

def sectorWrite : RequestSpec := ⟨firstDevice, .write, 0, some oneSector, .normal, none⟩

def deviceFlush : RequestSpec := ⟨firstDevice, .flush, 0, none, .normal, none⟩

end AsyncBlockQueue

/-! ## What holds along every run -/

structure Tracked (config : QueueConfig) (policy : Policy) (t : Table) (history : List Event) :
    Prop where
  wf : t.Wf config
  chronicle : Chronicle config t history
  ordered : Ordered t history
  fenced : policy.fences = true → Fenced t history
  current : Current t history
  known : Known t history
  flushing : Flushing policy t history
  busy : Busy t
  fitted : Fitted t
  counted : Counted t history
  kept : Kept t history
  settling : policy.epochs = true → Honest history → Settling t history
  accounts : policy.epochs = true → Honest history → Accounts t history

section

variable {config : QueueConfig} {policy : Policy} {t t' : Table} {history events : List Event}

theorem Move.tracked (hmove : Move config policy t events t') (hvalid : config.isValid = true)
    (h : Tracked config policy t history) : Tracked config policy t' (history ++ events) where
  wf := hmove.wf h.wf
  chronicle := hmove.chronicle hvalid h.wf h.chronicle
  ordered := hmove.ordered h.wf h.ordered
  fenced := fun hpol => hmove.fenced h.wf hpol h.chronicle h.ordered (h.fenced hpol)
  current := hmove.current h.wf h.chronicle h.current
  known := hmove.known h.wf h.ordered.present h.known
  flushing := hmove.flushing h.wf h.known h.flushing
  busy := hmove.busy h.wf (fun hrun => h.flushing.paid (by rw [hrun]; exact nofun)) h.busy
  fitted := hmove.fitted h.wf h.fitted
  counted := hmove.counted h.wf h.known h.counted
  kept := hmove.kept h.wf h.kept
  settling := fun hpol hhonest =>
    hmove.settling h.wf hpol h.chronicle (hmove.chronicle hvalid h.wf h.chronicle) hhonest
      (h.settling hpol hhonest.of_append)
  accounts := fun hpol hhonest =>
    hmove.accounts h.wf h.flushing hhonest (h.accounts hpol hhonest.of_append) hpol h.known
      h.chronicle

theorem Moves.tracked (hmoves : Moves config policy t events t') (hvalid : config.isValid = true)
    (h : Tracked config policy t history) : Tracked config policy t' (history ++ events) := by
  refine hmoves.invariant (I := fun past t => Tracked config policy t (history ++ past)) ?_ ?_
  · rw [append_nil]
    exact h
  · intro past t1 heard t2 htracked hmove
    rw [← append_assoc]
    exact hmove.tracked hvalid htracked

end

namespace AsyncBlockQueue

variable {policy : Policy} {s s' s0 : AsyncBlockQueue} {history events : List Event} {op : Op}

theorem exec_refines (hs : s.Sane) (h : Allowed policy s op) :
    Refines policy s (exec op s).1 (exec op s).2 := by
  cases op with
  | registerDevice config => exact registerDevice_refines hs config h.1 h.2
  | submit now request => exact submit_refines hs now request
  | dispatchOne device now => exact dispatchOne_refines hs device now h
  | complete token status => exact complete_refines hs token status
  | cancel id => exact cancel_refines hs id h
  | expireDeadlines now => exact expireDeadlines_refines hs now h
  | pollCancel device => exact pollCancel_refines hs device
  | takeCompletion id => exact takeCompletion_refines hs id
  | resetDevice device => exact resetDevice_refines hs device h
  | removeDevice device => exact removeDevice_refines hs device
  | beginShutdown => exact beginShutdown_refines hs
  | forceShutdown => exact forceShutdown_refines hs h

/-- The queue with everything that is known of its past. -/
structure Traced (policy : Policy) (s : AsyncBlockQueue) (history : List Event) : Prop where
  sane : s.Sane
  tracked : Tracked s.config policy s.table history

theorem Refines.traced (h : Refines policy s events s') (hs : s.Traced policy history) :
    s'.Traced policy (history ++ events) := by
  refine ⟨h.sane hs.sane, ?_⟩
  rw [h.config]
  exact Moves.tracked h.moves hs.sane.valid hs.tracked

theorem sane_fresh {reqCap devCap : Nat} {config : QueueConfig}
    (hreqs : reqCap < u32Max) (hdevs : devCap < u32Max)
    (hvalid : config.isValid = true) : (fresh reqCap devCap config).Sane := by
  have hslots : (fresh reqCap devCap config).slots.length < u32Max :=
    lt_of_eq_of_lt length_replicate hreqs
  refine ⟨hvalid, ⟨hslots, fun i slot hslot hent => ?_⟩,
    ⟨hslots, lt_of_eq_of_lt length_replicate hdevs, fun slot hmem => ?_,
      fun slot hmem hlive => ?_, fun device hmem => ?_⟩⟩
  · rw [eq_of_mem_replicate (mem_of_getElem? hslot)] at hent
    cases hent
  · rw [eq_of_mem_replicate hmem]
    exact slotOk_vacant config 1
  · rw [eq_of_mem_replicate hmem] at hlive
    cases hlive
  · rw [eq_of_mem_replicate hmem]
    exact ⟨Nat.zero_le _, by decide⟩

theorem traced_fresh {requestCapacity deviceCapacity : Nat} {config : QueueConfig}
    (hreqs : requestCapacity < u32Max) (hdevs : deviceCapacity < u32Max)
    (hvalid : config.isValid = true) :
    (fresh requestCapacity deviceCapacity config).Traced policy [] := by
  have hsane := sane_fresh hreqs hdevs hvalid
  generalize hs : fresh requestCapacity deviceCapacity config = s at hsane
  have hslots : ∀ slot ∈ s.slots, slot = .vacant 1 := by
    rw [← hs]
    exact fun _ => eq_of_mem_replicate
  have hdevs : ∀ device ∈ s.devices, device = .empty := by
    rw [← hs]
    exact fun _ => eq_of_mem_replicate
  have hrun : s.shutdown = .running := by
    rw [← hs]
    rfl
  have hdead : ∀ slot ∈ s.slots, slot.isLive = false := by
    intro slot hmem
    rw [hslots slot hmem]
    rfl
  -- what is said of live requests, of held slots and of devices is said of none
  have hlive : ∀ {P : Prop} {slot}, slot ∈ s.slots → slot.isLive = true → P := by
    intro P slot hmem hlive
    rw [hdead slot hmem] at hlive
    cases hlive
  have hheld : ∀ {P : Prop} {i : Nat} {slot}, s.slots[i]? = some slot → slot.isHeld = true → P := by
    intro P i slot hslot hheld
    rw [hslots slot (mem_of_getElem? hslot)] at hheld
    cases hheld
  have hpres : ∀ {P : Prop} {device}, device ∈ s.devices → device.present = true → P := by
    intro P device hmem hpres
    rw [hdevs device hmem] at hpres
    cases hpres
  have hempty : ∀ {P : DispatchToken → Prop}, ∀ token ∈ tokens [], P token := forall_mem_nil _
  refine ⟨hsane, hsane.wf, ⟨fun _ _ _ _ _ => rfl, fun _ _ => hheld,
    fun id => closed_nil s.config id⟩,
    ⟨fun _ _ => hheld, fun i device hdev hever => ?_, fun _ _ _ _ _ => rfl, fun _ => hpres⟩,
    fun _ => ⟨fun _ _ hslot => hlive (mem_of_getElem? hslot), fun _ => hlive⟩,
    fun _ _ hslot => hlive (mem_of_getElem? hslot), fun _ _ _ => hempty,
    ⟨fun _ => hempty, fun _ _ _ _ _ => rfl, fun _ => Nat.zero_le 1, fun _ _ => hpres,
      fun _ device hmem => ?_, fun hqsc => ?_, fun _ => hdead⟩, fun i device hdev => ?_,
    fun _ => hlive, fun _ _ _ _ => Nat.zero_le _, fun _ _ hmem => absurd hmem not_mem_nil,
    fun _ _ => ⟨fun _ _ => hheld, fun _ hnone => absurd rfl hnone⟩,
    fun _ _ => ⟨nodup_nil, nodup_nil, fun _ _ _ _ _ _ _ hmem => absurd hmem not_mem_nil,
      fun _ _ hdev => hpres (mem_of_getElem? hdev)⟩⟩
  · rw [hdevs device (mem_of_getElem? hdev)] at hever
    cases hever
  · rw [hdevs device hmem]
    rfl
  · exact absurd (hrun.symm.trans hqsc) nofun
  · rw [hdevs device (mem_of_getElem? hdev)]
    exact Nat.le_refl 0

theorem Run.traced (h : Run policy history s) : s.Traced policy history := by
  obtain ⟨s0, hstarts, hrun⟩ := h
  obtain ⟨reqCap, devCap, config, rfl, hreqs, hdevs, hvalid⟩ := hstarts.eq_fresh
  refine hrun.invariant (I := fun past s => s.Traced policy past)
    (traced_fresh hreqs hdevs hvalid) ?_
  rintro past s _ _ htraced ⟨op, hallowed⟩
  exact (exec_refines htraced.sane hallowed).traced htraced

end AsyncBlockQueue

end Ginkgo.Kernel.AsyncBlock
