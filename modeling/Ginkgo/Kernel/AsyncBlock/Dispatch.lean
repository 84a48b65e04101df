import Ginkgo.Kernel.AsyncBlock.Refinement

/-!
# Dispatch

A request that was selected always gives a command: its child can be cut out of the transfer.
-/

namespace Ginkgo.Kernel.AsyncBlock.AsyncBlockQueue

open Ginkgo.Lib List

variable {policy : Policy} {s s' s1 : AsyncBlockQueue} {deviceIndex index : Nat}
  {priority : BlockPriority} {slot : RequestSlot} {device : DeviceSlot}

/-- The next command of a slot. -/
def nextCommand (config : QueueConfig) (index : Nat) (slot : RequestSlot) (device : DeviceSlot)
    (segments : List DmaSegment) : DispatchCommand where
  token := {
    requestId := .fromParts index slot.generation
    deviceId := slot.device
    deviceEpoch := device.epoch
    childIndex := slot.nextChild
    serial := device.nextSerial
    shutdownFlush := false }
  operation := slot.operation
  lba := slot.lba + slot.nextChild * config.childBytes / sectorSize
  byteLen := slot.childLen config slot.nextChild
  priority := slot.priority
  orderingEpoch := slot.orderingEpoch
  segments := segments

/-- The queue with the next command of a slot out. -/
def sent (deviceIndex index : Nat) (slot : RequestSlot) (device : DeviceSlot)
    (s : AsyncBlockQueue) : AsyncBlockQueue :=
  { s with
    slots := s.slots.set index (dispatchedSlot slot device.nextSerial)
    devices := s.devices.set deviceIndex
      (dispatchedDevice { device with nextSerial := nextNonzeroU64 device.nextSerial }
        slot.priority)
    inFlightCommands := s.inFlightCommands + 1 }

theorem dispatchRequest_eq (hvalid : s.config.isValid = true) (hslot : s.slots[index]? = some slot)
    (hdev : s.devices[deviceIndex]? = some device)
    (hshaped : Shaped s.config slot.spec slot.childCount) (hnext : slot.nextChild < slot.childCount)
    (now : Nat) :
    ∃ segments, childSlice s.config slot slot.nextChild =
        some (slot.nextChild * s.config.childBytes,
          slot.childLen s.config slot.nextChild, segments) ∧
      s.dispatchRequest deviceIndex index now =
        (some (nextCommand s.config index slot device segments),
          if slot.nextChild + 1 < slot.childCount then
            (s.sent deviceIndex index slot device).enqueue index now
          else s.sent deviceIndex index slot device) := by
  obtain ⟨segments, hslice, hlba, -⟩ := childSlice_eq_some hvalid hshaped hnext
  refine ⟨segments, hslice, ?_⟩
  have hadd : checkedAdd slot.lba (slot.nextChild * s.config.childBytes / sectorSize) =
      some (slot.lba + slot.nextChild * s.config.childBytes / sectorSize) := if_pos hlba
  unfold dispatchRequest
  simp only [hslot, hdev, hslice, hadd]
  rfl

theorem dispatchRequest_shutdownFlush {command : DispatchCommand} {now : Nat}
    (h : s.dispatchRequest deviceIndex index now = (some command, s')) :
    command.token.shutdownFlush = false := by
  unfold dispatchRequest at h
  split at h
  · split at h
    · cases h
    · simp only at h
      split at h
      · cases h
      · obtain rfl := Option.some.inj (Prod.mk.inj h).1
        rfl
  · cases h

theorem Recredited.sameDevice {device' : DeviceSlot} (h : Recredited device device') :
    SameDevice device device' := by
  obtain ⟨_, _, rfl⟩ := h
  exact ⟨rfl, rfl, rfl, rfl, rfl, rfl, rfl, rfl, rfl, rfl⟩

theorem Picked.dispatch_refines (hpicked : Picked deviceIndex index priority s s1) (hs : s.Sane)
    (hdev : s.devices[deviceIndex]? = some device)
    (hdepth : device.inFlight < device.config.queueDepth) (now : Nat) :
    ∃ command s', s1.dispatchRequest deviceIndex index now = (some command, s') ∧
      Refines policy s [.dispatched command] s' ∧ command.priority = priority ∧
      command.token.deviceId = .fromParts deviceIndex device.generation := by
  obtain ⟨slot, hslot, hidx, hprio, hslots⟩ := hpicked.slot
  obtain ⟨slot', device', hslot', hdev', hpres, hready⟩ := isDispatchable_iff.mp hpicked.ready
  cases hslot.symm.trans hslot'
  cases hdev.symm.trans hdev'
  have hlt := lt_length hslot
  have hmem := mem_of_getElem? hslot
  -- the device that the request names is the one at this index
  have hname : slot.device = .fromParts deviceIndex device.generation := by
    obtain ⟨i, other, hother⟩ := hs.wf.attached slot hmem hready.live
    cases hidx.symm.trans (hs.wf.index_of_present hother)
    cases hdev.symm.trans hother.1
    exact hother.2.2
  obtain ⟨device1, hdev1, credits, fc, rfl⟩ := forall₂_getElem? hpicked.devices hdev
  have hslot1 : s1.slots[index]? = some { slot with queuedEntry := false } := by
    rw [hslots]
    exact getElem?_set_self hlt
  have hshaped := (hs.wf.slotOk slot hmem).shaped (RequestSlot.held_of_isLive hready.live)
  obtain ⟨segments, hslice, hdisp⟩ := dispatchRequest_eq
    (by rw [hpicked.config]; exact hs.valid) hslot1 hdev1
    (by rw [hpicked.config]; exact hshaped) hready.next now
  refine ⟨_, _, hdisp, ?_, hprio, hname⟩
  generalize hdev2 : { device with credits := credits, fairCursor := fc } =
    device2 at hdev1 ⊢
  have hkept : ∀ i other, i ≠ index → s1.slots[i]? = some other → other.queuedEntry = true →
      ∃ entry ∈ s1.queues.get other.priority, entry.id = .fromParts i other.generation := by
    intro i other hne hother hent
    rw [hslots, getElem?_set_ne (Ne.symm hne)] at hother
    obtain ⟨entry, hentMem, hid⟩ := hs.queued.listed i other hother hent
    refine ⟨entry, hpicked.keeps _ entry hentMem fun generation heq => hne ?_, hid⟩
    exact (BlockRequestId.fromParts_inj (hs.queued.index_lt hother) (hs.queued.index_lt hslot)
      (hid.symm.trans heq)).1
  have htune : Move s.config policy s.table [] { s.table with devices := s1.devices } := by
    exact .tune (hpicked.devices.imp fun _ _ => Recredited.sameDevice) (.inl rfl)
  obtain ⟨t, ht⟩ : ∃ t, t = { s.table with
      slots := s.slots.set index (sentSlot slot device2.nextSerial)
      devices := s1.devices.set deviceIndex (dispatchedDevice { device2 with
        nextSerial := nextNonzeroU64 device2.nextSerial } slot.priority) } := ⟨_, rfl⟩
  have hmove : Move s.config policy { s.table with devices := s1.devices }
      [.dispatched (nextCommand s1.config index slot device2 segments)] t := by
    subst ht hdev2
    refine .dispatch hslot hdev1 hpres hname { hready with } hdepth (hpicked.config ▸ hslice) rfl ?_
    exact ⟨rfl, rfl, rfl, rfl, rfl, rfl, rfl, rfl, rfl, rfl⟩
  have hmoves := Star.tail (Star.single htune) hmove
  set out := s1.sent deviceIndex index { slot with queuedEntry := false } device2 with hout
  have hget : out.slots[index]? =
      some (dispatchedSlot { slot with queuedEntry := false } device2.nextSerial) :=
    getElem?_set_self (by rw [hslots, length_set]; exact hlt)
  have hsize : s1.slots.length < u32Max := by
    rw [hslots, length_set]
    exact hs.queued.size
  by_cases hmore : slot.nextChild + 1 < slot.childCount
  · rw [if_pos hmore]
    refine ⟨by rw [enqueue_eq hget]; exact hpicked.config, enqueue_queued ?_ hget ?_, ?_⟩
    · exact lt_of_eq_of_lt length_set hsize
    · intro i other hne hother
      exact hkept i other hne ((getElem?_set_ne (Ne.symm hne)).symm.trans hother)
    · have htab : (out.enqueue index now).table = t := by
        rw [ht, enqueue_eq hget, hout]
        unfold sent table sentSlot
        simp only [hslots, set_set, hpicked.shutdown, hmore]
        rfl
      rw [htab]
      exact hmoves
  · rw [if_neg hmore]
    refine ⟨hpicked.config, ⟨lt_of_eq_of_lt length_set hsize, ?_⟩, ?_⟩
    · intro i other hother hent
      rcases (getElem?_set_iff hslot1 _ i other).mp hother with ⟨rfl, rfl⟩ | ⟨hne, hother⟩
      · cases hent
      · exact hkept i other hne hother hent
    · have htab : out.table = t := by
        rw [ht, hout]
        unfold sent table sentSlot
        simp only [hslots, set_set, hpicked.shutdown, hmore]
        rfl
      rw [htab]
      exact hmoves

theorem dispatchShutdownFlush_refines (hs : s.Sane) (hdev : s.devices[deviceIndex]? = some device)
    (hpres : device.present = true) (hdepth : device.inFlight < device.config.queueDepth) :
    Refines policy s ((s.dispatchShutdownFlush deviceIndex).1.toList.map .dispatched)
      (s.dispatchShutdownFlush deviceIndex).2 := by
  unfold dispatchShutdownFlush
  simp only [hdev]
  split
  · exact .refl hs
  rename_i hidle
  simp only [not_or, not_not] at hidle
  obtain ⟨hqsc, hpend, hzero, hnone⟩ := hidle
  have hquiet : ∀ slot ∈ s.slots, slot.device.index = some deviceIndex → slot.isLive = false := by
    intro slot hmem hidx
    refine Bool.eq_false_iff.mpr fun hlive => hnone (any_eq_true.mpr ⟨slot, hmem, ?_⟩)
    rw [Bool.and_eq_true]
    exact ⟨decide_eq_true hidx, hlive⟩
  refine ⟨rfl, hs.queued.of_eq rfl rfl, .single ?_⟩
  refine .flush hdev hpres hqsc hpend hzero hdepth hquiet rfl rfl rfl rfl ?_
  exact ⟨rfl, rfl, rfl, rfl, rfl, by dsimp only; rw [hzero], rfl, rfl, rfl, rfl⟩

theorem Recredits.refines (h : Recredits s s') (hs : s.Sane) : Refines policy s [] s' := by
  obtain ⟨devices, hdevs, rfl⟩ := h
  exact ⟨rfl, hs.queued.of_eq rfl rfl,
    .single (.tune (hdevs.imp fun _ _ => Recredited.sameDevice) (.inl rfl))⟩

theorem Sane.weights (hs : s.Sane) (priority : BlockPriority) :
    s.config.priorityWeights.get priority ≠ 0 := by
  have hvalid := hs.valid
  unfold QueueConfig.isValid at hvalid
  simp only [Bool.and_eq_true, decide_eq_true_eq] at hvalid
  obtain ⟨⟨⟨⟨-, hlatency⟩, hnormal⟩, hbackground⟩, -⟩ := hvalid
  cases priority with
  | latency => exact hlatency
  | normal => exact hnormal
  | background => exact hbackground

/-- What `dispatchOne` does once the deadlines were looked at: it serves a request if there is
one, and background work first if that was passed over for too long. -/
theorem dispatchOne_cases (hs : s.Sane) (hpres : s.devices[deviceIndex]? = some device)
    (hthere : device.present = true) (hdepth : device.inFlight < device.config.queueDepth)
    (now : Nat) :
    (∃ s', s.selectRequest deviceIndex now = (none, s') ∧ Refines policy s
        ((s'.dispatchShutdownFlush deviceIndex).1.toList.map .dispatched)
        (s'.dispatchShutdownFlush deviceIndex).2 ∧
          ∀ priority, ¬Eligible deviceIndex now s priority) ∨
    ∃ index s1 command s', s.selectRequest deviceIndex now = (some index, s1) ∧
      s1.dispatchRequest deviceIndex index now = (some command, s') ∧
      Refines policy s [.dispatched command] s' ∧
      command.token.deviceId = .fromParts deviceIndex device.generation ∧
      (Eligible deviceIndex now s .background →
        s.config.backgroundProgressInterval.toNat ≤ device.nonBackgroundDispatches →
          command.priority = .background) := by
  rcases selectRequest_cases hs.weights hpres now with
    ⟨s', hsel, hsame, hnone⟩ | ⟨index, priority, s1, hsel, hpicked, hforced⟩
  · have hrefines : Refines policy s [] s' := hsame.refines hs
    refine .inl ⟨s', hsel, ?_, hnone⟩
    obtain ⟨devices, hdevs, rfl⟩ := hsame
    obtain ⟨device', hdev', _, _, rfl⟩ := forall₂_getElem? hdevs hpres
    exact hrefines.trans (dispatchShutdownFlush_refines (hrefines.sane hs) hdev' hthere hdepth)
  · obtain ⟨command, s', hdisp, hrefines, hprio, hname⟩ :=
      hpicked.dispatch_refines hs hpres hdepth now
    refine .inr ⟨index, s1, command, s', hsel, hdisp, hrefines, hname, fun helig hpassed => ?_⟩
    exact hprio.trans (hforced helig hpassed)

theorem dispatchOne_eq {id : BlockDeviceId} (hsize : s.devices.length < u32Max)
    (hpres : s.table.Present id deviceIndex device) (now : Nat) :
    s.dispatchOne id now =
      if device.config.queueDepth ≤ device.inFlight then (none, (s.expireDeadlines now).2)
      else match (s.expireDeadlines now).2.selectRequest deviceIndex now with
        | (some slotIndex, s) => s.dispatchRequest deviceIndex slotIndex now
        | (none, s) => s.dispatchShutdownFlush deviceIndex := by
  have hdevs := (expireDeadlines_leaves now s).devices
  unfold dispatchOne
  generalize (s.expireDeadlines now).2 = s1 at hdevs ⊢
  have hpres1 : s1.table.Present id deviceIndex device := by
    refine ⟨?_, hpres.2⟩
    rw [table_devices, hdevs]
    exact hpres.1
  have hdev : s1.devices[deviceIndex]? = some device := hpres1.1
  dsimp only
  rw [deviceIndex_of_present (hdevs ▸ hsize) hpres1]
  refine if_congr ?_ rfl rfl
  rw [hdev, Option.any_some, decide_eq_true_eq]

theorem dispatchOne_refines (hs : s.Sane) (id : BlockDeviceId) (now : Nat)
    (hpol : policy.fences = true → s.ExpiryKeepsFences now) :
    Refines policy s ((s.dispatchOne id now).1.toList.map .dispatched)
      (s.dispatchOne id now).2 := by
  have hexpire := expireDeadlines_refines hs now hpol
  unfold dispatchOne
  simp only
  generalize (s.expireDeadlines now).2 = s0 at hexpire ⊢
  have hs0 := hexpire.sane hs
  cases hidx : s0.deviceIndex id with
  | none => exact hexpire
  | some deviceIndex =>
    obtain ⟨device, hdev, hpres, -⟩ := deviceIndex_eq_some hidx
    have hdev : s0.devices[deviceIndex]? = some device := hdev
    simp only [hdev, Option.any_some, decide_eq_true_eq]
    split
    · exact hexpire
    rename_i hdepth
    rcases dispatchOne_cases hs0 hdev hpres (Nat.not_le.mp hdepth) now with
      ⟨s', hsel, hrefines, -⟩ | ⟨index, s1, command, s', hsel, hdisp, hrefines, -⟩
    · rw [hsel]
      exact hexpire.trans hrefines
    · rw [hsel]
      simp only
      rw [hdisp]
      exact hexpire.trans hrefines

end Ginkgo.Kernel.AsyncBlock.AsyncBlockQueue
