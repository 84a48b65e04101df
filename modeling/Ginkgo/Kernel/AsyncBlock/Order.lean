import Ginkgo.Kernel.AsyncBlock.Story

/-!
# The order of the requests of a device

The sequence number of a request is its place among the requests of its device, and its
ordering epoch counts the fences before it.
-/

namespace Ginkgo.Kernel.AsyncBlock

open Ginkgo.Lib List

variable {config : QueueConfig} {policy : Policy} {t t' : Table} {history events : List Event}
  {index : Nat} {slot slot' : RequestSlot}

/-- The requests that were accepted for a device, in order. -/
def submissionsTo (device : BlockDeviceId) (history : List Event) :
    List (BlockRequestId × RequestSpec) :=
  (submissions history).filter (·.2.device = device)

def fenceCount (requests : List (BlockRequestId × RequestSpec)) : Nat :=
  requests.countP (·.2.operation.isFence)

theorem submissionsTo_append (device : BlockDeviceId) (history events : List Event) :
    submissionsTo device (history ++ events) =
      submissionsTo device history ++ submissionsTo device events := by
  unfold submissionsTo
  rw [submissions_append, filter_append]

theorem submissionsTo_submitted (device : BlockDeviceId) (id : BlockRequestId)
    (request : RequestSpec) :
    submissionsTo device [.submitted id request] =
      if request.device = device then [(id, request)] else [] := by
  unfold submissionsTo submissions
  simp only [filterMap_cons, Event.submission?]
  split <;> simp [*]

theorem submissions_story (id : BlockRequestId) (history : List Event) :
    submissions (story id history) = (submissions history).filter (·.1 = id) := by
  refine filterMap_filter_eq (fun event sub hev => ?_) history
  cases event with
  | submitted id' request =>
    cases hev
    simp [Event.request]
  | _ => cases hev

theorem Chronicle.submissions_nodup (h : Chronicle config t history) :
    ((submissions history).map Prod.fst).Nodup := by
  rw [nodup_iff_count_le_one]
  intro id
  have hone := (h.closed id).submitted
  rw [submissions_story] at hone
  rw [count, countP_map, countP_eq_length_filter]
  exact hone

/-! ## Sequence numbers -/

/-- The slot stands where its sequence number says. -/
structure Placed (index : Nat) (slot : RequestSlot) (history : List Event) : Prop where
  positive : 0 < slot.sequence
  place : (submissionsTo slot.device history)[slot.sequence - 1]? =
    some (.fromParts index slot.generation, slot.spec)
  fences : slot.orderingEpoch =
    1 + fenceCount ((submissionsTo slot.device history).take (slot.sequence - 1))

structure Ordered (t : Table) (history : List Event) : Prop where
  placed : ∀ i slot, t.slots[i]? = some slot → slot.isHeld = true → Placed i slot history
  next : ∀ i device, t.devices[i]? = some device → device.everRegistered = true →
    device.nextSequence = 1 + (submissionsTo (.fromParts i device.generation) history).length ∧
      device.nextOrderingEpoch =
        1 + fenceCount (submissionsTo (.fromParts i device.generation) history)
  fresh : ∀ i device, t.devices[i]? = some device → ∀ generation, device.generation < generation ∨
      generation = device.generation ∧ device.everRegistered = false →
    submissionsTo (.fromParts i generation) history = []
  present : ∀ device ∈ t.devices, device.present = true → device.everRegistered = true

theorem Placed.append (h : Placed index slot history) (events : List Event) :
    Placed index slot (history ++ events) := by
  have hlt := lt_length h.place
  refine ⟨h.positive, ?_, ?_⟩
  · rw [submissionsTo_append, getElem?_append_left hlt]
    exact h.place
  · rw [submissionsTo_append, take_append_of_le_length (Nat.le_of_lt hlt)]
    exact h.fences

theorem Placed.of_same (h : Placed index slot history) (hsame : SameRequest slot slot') :
    Placed index slot' history := by
  refine ⟨?_, ?_, ?_⟩
  · rw [hsame.sequence]
    exact h.positive
  · rw [hsame.device, hsame.sequence, hsame.generation, hsame.spec]
    exact h.place
  · rw [hsame.device, hsame.sequence, hsame.orderingEpoch]
    exact h.fences

/-- The device has given no number away. -/
structure SameNumbers (device device' : DeviceSlot) : Prop where
  generation : device'.generation = device.generation
  everRegistered : device'.everRegistered = device.everRegistered
  nextSequence : device'.nextSequence = device.nextSequence
  nextOrderingEpoch : device'.nextOrderingEpoch = device.nextOrderingEpoch
  present : device'.present = true → device.present = true

theorem SameNumbers.refl (device : DeviceSlot) : SameNumbers device device :=
  ⟨rfl, rfl, rfl, rfl, fun h => h⟩

theorem Ordered.keep (h : Ordered t history) (hmove : Move config policy t events t')
    (hwf : t.Wf config) (hevs : submissions events = [])
    (hdevs : List.Forall₂ SameNumbers t.devices t'.devices) :
    Ordered t' (history ++ events) := by
  have hsame : ∀ device, submissionsTo device (history ++ events) =
    submissionsTo device history := by
    intro device
    rw [submissionsTo_append]
    unfold submissionsTo
    rw [hevs, filter_nil, append_nil]
  refine ⟨fun i slot' hi hheld => ?_, fun i device' hi hever => ?_,
    fun i device' hi generation hnew => ?_, fun device' hmem hpres => ?_⟩
  · obtain ⟨slot, hslot, hturn⟩ := hmove.slotTurn hwf hi
    obtain ⟨hheldOld, hreq⟩ := hturn.of_unsubmitted hevs hheld
    exact ((h.placed i slot hslot hheldOld).append events).of_same hreq
  · obtain ⟨device, hdev, hnumbers⟩ := forall₂_getElem?_right hdevs hi
    rw [hsame, hnumbers.generation, hnumbers.nextSequence, hnumbers.nextOrderingEpoch]
    exact h.next i device hdev (hnumbers.everRegistered.symm.trans hever)
  · obtain ⟨device, hdev, hnumbers⟩ := forall₂_getElem?_right hdevs hi
    rw [hsame]
    rw [hnumbers.generation, hnumbers.everRegistered] at hnew
    exact h.fresh i device hdev generation hnew
  · obtain ⟨i, hi⟩ := mem_iff_getElem?.mp hmem
    obtain ⟨device, hdev, hnumbers⟩ := forall₂_getElem?_right hdevs hi
    rw [hnumbers.everRegistered]
    exact h.present device (mem_of_getElem? hdev) (hnumbers.present hpres)

theorem Ordered.register (h : Ordered t history) {device device' : DeviceSlot}
    (hdev : t.devices[index]? = some device)
    (hgen : device.everRegistered = false ∧ device'.generation = device.generation ∨
      device'.generation = device.generation + 1) (hever : device'.everRegistered = true)
    (hseq : device'.nextSequence = 1) (hordg : device'.nextOrderingEpoch = 1) (id : BlockDeviceId) :
    Ordered { t with devices := t.devices.set index device' } (history ++ [.registered id]) := by
  have hsame : ∀ device, submissionsTo device (history ++ [.registered id]) =
      submissionsTo device history := by
    intro device
    rw [submissionsTo_append]
    exact append_nil _
  have hcases := getElem?_set_iff hdev device'
  have hnone : submissionsTo (.fromParts index device'.generation) history = [] :=
    h.fresh index device hdev _ (hgen.symm.imp (by omega) fun hnew => ⟨hnew.2, hnew.1⟩)
  refine ⟨fun i slot hi hheld => (h.placed i slot hi hheld).append _, fun i other hi hother => ?_,
    fun i other hi generation hnew => ?_, forall_mem_set h.present fun _ => hever⟩
  · rw [hsame]
    rcases (hcases i other).mp hi with ⟨rfl, rfl⟩ | ⟨-, hi⟩
    · rw [hnone, hseq, hordg]
      exact ⟨rfl, rfl⟩
    · exact h.next i other hi hother
  · rw [hsame]
    rcases (hcases i other).mp hi with ⟨rfl, rfl⟩ | ⟨-, hi⟩
    · rw [hever] at hnew
      exact h.fresh i device hdev generation (.inl (by
        rcases hnew with hlt | ⟨-, hnever⟩
        · omega
        · cases hnever))
    · exact h.fresh i other hi generation hnew

theorem fenceCount_append (requests requests' : List (BlockRequestId × RequestSpec)) :
    fenceCount (requests ++ requests') = fenceCount requests + fenceCount requests' :=
  countP_append

theorem Ordered.submit (h : Ordered t history) (hwf : t.Wf config) {deviceIndex childCount : Nat}
    {device : DeviceSlot} {request : RequestSpec} (hslot : t.slots[index]? = some slot)
    (hdev : t.devices[deviceIndex]? = some device) (hpres : device.present = true)
    (hname : request.device = .fromParts deviceIndex device.generation) :
    Ordered { t with
      slots := t.slots.set index { AsyncBlockQueue.acceptedSlot request slot.generation
        device.nextSequence device.nextOrderingEpoch childCount with queuedEntry := true }
      devices := t.devices.set deviceIndex { device with
        nextSequence := device.nextSequence + 1
        nextOrderingEpoch :=
          device.nextOrderingEpoch + if request.operation.isFence then 1 else 0 } }
      (history ++ [.submitted (.fromParts index slot.generation) request]) := by
  have hever := h.present device (mem_of_getElem? hdev) hpres
  obtain ⟨hseq, hordg⟩ := h.next deviceIndex device hdev hever
  rw [← hname] at hseq hordg
  have hsubs id := submissionsTo_append id history
    [.submitted (.fromParts index slot.generation) request]
  simp only [submissionsTo_submitted] at hsubs
  have hself := hsubs request.device
  rw [if_pos rfl] at hself
  refine ⟨fun i other hi hheld => ?_, fun i other hi hotherEver => ?_,
    fun i other hi generation hnew => ?_, forall_mem_set h.present fun _ => hever⟩
  · rcases (getElem?_set_iff hslot _ i other).mp hi with ⟨rfl, rfl⟩ | ⟨-, hi⟩
    · have hlast : device.nextSequence - 1 = (submissionsTo request.device history).length := by
        omega
      refine ⟨?_, ?_, ?_⟩
      · change 0 < device.nextSequence
        omega
      · change (submissionsTo request.device _)[device.nextSequence - 1]? = _
        rw [hself, hlast, getElem?_concat_length]
        rfl
      · change device.nextOrderingEpoch =
          1 + fenceCount ((submissionsTo request.device _).take (device.nextSequence - 1))
        rw [hself, hlast, take_left', hordg]
        rfl
    · exact (h.placed i other hi hheld).append _
  · rcases (getElem?_set_iff hdev _ i other).mp hi with ⟨rfl, rfl⟩ | ⟨hne, hi⟩
    · change device.nextSequence + 1 = 1 +
        (submissionsTo (.fromParts i device.generation) _).length ∧
        (device.nextOrderingEpoch + if request.operation.isFence then 1 else 0) =
          1 + fenceCount (submissionsTo (.fromParts i device.generation) _)
      rw [← hname, hself, length_append, fenceCount_append, hordg]
      refine ⟨by rw [length_singleton]; omega, ?_⟩
      rw [Nat.add_assoc]
      congr 2
      unfold fenceCount
      rw [countP_singleton]
    · rw [hsubs, if_neg fun heq => hne (hwf.device_inj hi hdev
        (heq.symm.trans hname)).1, append_nil]
      exact h.next i other hi hotherEver
  · rcases (getElem?_set_iff hdev _ i other).mp hi with ⟨rfl, rfl⟩ | ⟨hne, hi⟩
    · have hlater : device.generation < generation := by
        rcases hnew with hlt | ⟨-, hnever⟩
        · exact hlt
        · exact nomatch hever.symm.trans hnever
      rw [hsubs, if_neg fun heq => ?_, append_nil]
      · exact h.fresh i device hdev generation (.inl hlater)
      · have hlast := (BlockDeviceId.fromParts_inj (hwf.index_lt_of_device hdev)
          (hwf.index_lt_of_device hdev) (heq.symm.trans hname)).2
        omega
    · rw [hsubs, if_neg fun heq => hne (BlockDeviceId.fromParts_inj (hwf.index_lt_of_device hi)
        (hwf.index_lt_of_device hdev) (heq.symm.trans hname)).1, append_nil]
      exact h.fresh i other hi generation hnew

theorem Move.ordered (hmove : Move config policy t events t') (hwf : t.Wf config)
    (h : Ordered t history) : Ordered t' (history ++ events) := by
  have hkeep := fun hevs hdevs => h.keep hmove hwf hevs hdevs
  cases hmove with
  | register hdev _ hgen _ hever _ _ hseq hordg =>
    exact h.register hdev hgen hever hseq hordg _
  | submit hslot _ hdev hpres hname => exact h.submit hwf hslot hdev hpres hname
  | dispatch _ hdev _ _ _ _ _ _ hsame | flush hdev _ _ _ _ _ _ _ _ _ _ hsame =>
    refine hkeep rfl (forall₂_set_self SameNumbers.refl hdev ?_)
    exact { hsame with present := fun hpres => hsame.present.symm.trans hpres }
  | complete _ _ _ hdev | completeFlush hdev =>
    exact hkeep rfl (forall₂_set_self SameNumbers.refl hdev ⟨rfl, rfl, rfl, rfl, fun h => h⟩)
  | advance _ _ hdev hpres _ _ hgen hever _ _ hseq hordg =>
    refine hkeep ?_ (forall₂_set_self SameNumbers.refl hdev
      ⟨hgen, hever, hseq, hordg, fun _ => hpres⟩)
    split <;> rfl
  | tune hdevs => exact hkeep rfl (hdevs.imp fun _ _ hsame =>
      { hsame with present := fun hpres => hsame.present.symm.trans hpres })
  | begin _ hdevs =>
    refine hkeep rfl (hdevs.imp fun _ _ hflush => ?_)
    rcases hflush with ⟨rfl, -⟩ | ⟨_, rfl, -⟩
    · exact .refl _
    · exact ⟨rfl, rfl, rfl, rfl, fun h => h⟩
  | _ => exact hkeep rfl (forall₂_same.mpr fun device _ => .refl device)

end Ginkgo.Kernel.AsyncBlock
