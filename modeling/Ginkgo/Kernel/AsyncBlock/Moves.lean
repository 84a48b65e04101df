import Ginkgo.Kernel.AsyncBlock.Slots

/-!
# What every table keeps

Every slot is in order, and a live request belongs to a device that is present.
-/

namespace Ginkgo.Kernel.AsyncBlock

open Ginkgo.Lib List

variable {config : QueueConfig} {policy : Policy} {t t' : Table} {events : List Event} {index : Nat}

section

variable {index' generation generation' : Nat} (hidx : index < u32Max) (hidx' : index' < u32Max)
include hidx hidx'

theorem BlockDeviceId.fromParts_inj
    (h : fromParts index generation = fromParts index' generation') :
    index = index' ∧ generation = generation' :=
  packTag_inj hidx hidx' (BlockDeviceId.mk.inj h)

theorem BlockRequestId.fromParts_inj
    (h : fromParts index generation = fromParts index' generation') :
    index = index' ∧ generation = generation' :=
  packTag_inj hidx hidx' (BlockRequestId.mk.inj h)

end

theorem BlockDeviceId.eq_fromParts {id : BlockDeviceId} (h : id.index = some index) :
    id = fromParts index id.generation :=
  congrArg BlockDeviceId.mk (packTag_of_tagIndex h).symm

theorem BlockRequestId.eq_fromParts {id : BlockRequestId} (h : id.index = some index) :
    id = fromParts index id.generation :=
  congrArg BlockRequestId.mk (packTag_of_tagIndex h).symm

/-- The device with this name is present. -/
def Table.Present (t : Table) (id : BlockDeviceId) (index : Nat) (device : DeviceSlot) : Prop :=
  t.devices[index]? = some device ∧ device.present = true ∧ id = .fromParts index device.generation

structure DeviceOk (device : DeviceSlot) : Prop where
  depth : device.inFlight ≤ device.config.queueDepth
  epoch : device.epoch ≤ u32Max

theorem SameDevice.deviceOk {device device' : DeviceSlot} (h : SameDevice device device')
    (hok : DeviceOk device) : DeviceOk device' := by
  refine ⟨?_, ?_⟩
  · rw [h.inFlight, h.config]
    exact hok.depth
  · rw [h.epoch]
    exact hok.epoch

structure Table.Wf (config : QueueConfig) (t : Table) : Prop where
  slotCount : t.slots.length < u32Max
  deviceCount : t.devices.length < u32Max
  slotOk : ∀ slot ∈ t.slots, SlotOk config slot
  attached : ∀ slot ∈ t.slots, slot.isLive = true → ∃ index device,
    t.Present slot.device index device
  deviceOk : ∀ device ∈ t.devices, DeviceOk device

namespace Table.Wf

variable {index : Nat} {slot : RequestSlot} {device : DeviceSlot}

variable (h : t.Wf config)
include h

theorem index_lt_of_slot (hslot : t.slots[index]? = some slot) : index < u32Max :=
  Nat.lt_trans (lt_length hslot) h.slotCount

theorem index_lt_of_device (hdev : t.devices[index]? = some device) : index < u32Max :=
  Nat.lt_trans (lt_length hdev) h.deviceCount

theorem index_of_present {id : BlockDeviceId} (hpres : t.Present id index device) :
    id.index = some index := by
  rw [hpres.2.2]
  exact tagIndex_packTag _ (h.index_lt_of_device hpres.1)

theorem device_inj {index' generation : Nat} {device' : DeviceSlot}
    (hdev : t.devices[index]? = some device) (hdev' : t.devices[index']? = some device')
    (hname : BlockDeviceId.fromParts index device.generation = .fromParts index' generation) :
    index = index' ∧ device.generation = generation :=
  BlockDeviceId.fromParts_inj (h.index_lt_of_device hdev) (h.index_lt_of_device hdev') hname

theorem of_parts (hslots : t'.slots.length = t.slots.length)
    (hdevs : t'.devices.length = t.devices.length) (hok : ∀ slot ∈ t'.slots, SlotOk config slot)
    (hlive : ∀ slot ∈ t'.slots, slot.isLive = true →
      (∃ index device, t'.Present slot.device index device) ∨
        ∃ old ∈ t.slots, old.isLive = true ∧ old.device = slot.device ∧
          ∀ index device, t.Present slot.device index device →
            ∃ device', t'.Present slot.device index device')
    (hdevOk : ∀ device ∈ t'.devices, DeviceOk device) :
    t'.Wf config := by
  refine ⟨hslots ▸ h.slotCount, hdevs ▸ h.deviceCount, hok, fun slot hmem hslot => ?_, hdevOk⟩
  rcases hlive slot hmem hslot with hpres | ⟨old, hold, holdLive, hdev, hkeeps⟩
  · exact hpres
  · obtain ⟨index, device, hpres⟩ := h.attached old hold holdLive
    rw [hdev] at hpres
    obtain ⟨device', hpres'⟩ := hkeeps index device hpres
    exact ⟨index, device', hpres'⟩

theorem set_slot {slot' : RequestSlot} (hslot : t.slots[index]? = some slot)
    (hok : SlotOk config slot')
    (hlive : slot'.isLive = true → slot.isLive = true ∧ slot'.device = slot.device) :
    ({ t with slots := t.slots.set index slot' } : Table).Wf config := by
  refine h.of_parts length_set rfl (forall_mem_set h.slotOk hok) ?_ h.deviceOk
  intro other hmem hother
  refine .inr ?_
  rcases mem_or_eq_of_mem_set hmem with hmem | rfl
  · exact ⟨other, hmem, hother, rfl, fun _ device hpres => ⟨device, hpres⟩⟩
  · obtain ⟨hold, hdev⟩ := hlive hother
    exact ⟨slot, mem_of_getElem? hslot, hold, hdev.symm, fun _ device hpres => ⟨device, hpres⟩⟩

theorem set_device {device' : DeviceSlot}
    (hdev : t.devices[index]? = some device) (hpres : device.present = true →
      device'.present = true ∧ device'.generation = device.generation) (hok : DeviceOk device') :
    ({ t with devices := t.devices.set index device' } : Table).Wf config := by
  refine h.of_parts rfl length_set h.slotOk ?_ (forall_mem_set h.deviceOk hok)
  intro slot hmem hlive
  refine .inr ⟨slot, hmem, hlive, rfl, fun i other hother => ?_⟩
  obtain ⟨hother, hthere, hname⟩ := hother
  by_cases heq : i = index
  · subst heq
    cases hdev.symm.trans hother
    obtain ⟨hthere', hgen⟩ := hpres hthere
    exact ⟨device', getElem?_set_self (lt_length hdev), hthere', by rw [hgen]; exact hname⟩
  · exact ⟨other, (getElem?_set_ne (Ne.symm heq)).trans hother, hthere, hname⟩

/-- What becomes of the devices does not matter to the slots, if it leaves them in place. -/
theorem map_devices {devices : List DeviceSlot} (shutdown : ShutdownState)
    (hdevs : List.Forall₂ (fun device device' => device'.generation = device.generation ∧
      device'.present = device.present ∧ (DeviceOk device → DeviceOk device')) t.devices devices) :
    ({ t with devices := devices, shutdown := shutdown } : Table).Wf config := by
  refine h.of_parts rfl hdevs.length_eq.symm h.slotOk ?_ ?_
  · intro slot hmem hlive
    refine .inr ⟨slot, hmem, hlive, rfl, fun i device hpres => ?_⟩
    obtain ⟨hdev, hthere, hname⟩ := hpres
    obtain ⟨device', hdev', hgen, hpres', -⟩ := forall₂_getElem? hdevs hdev
    exact ⟨device', hdev', hpres'.trans hthere, by rw [hgen]; exact hname⟩
  · intro device' hmem
    obtain ⟨i, hdev'⟩ := mem_iff_getElem?.mp hmem
    obtain ⟨device, hdev, -, -, hok⟩ := forall₂_getElem?_right hdevs hdev'
    exact hok (h.deviceOk device (mem_of_getElem? hdev))

end Table.Wf

theorem takenSlot_isLive (slot : RequestSlot) : (takenSlot slot).isLive = false := by
  unfold takenSlot
  split <;> rfl

theorem Move.wf (hmove : Move config policy t events t') (h : t.Wf config) : t'.Wf config := by
  cases hmove with
  | register hdev habsent _ _ _ hep hinFl =>
    refine h.set_device hdev (fun hpres => ?_) ⟨?_, ?_⟩
    · exact nomatch habsent.symm.trans hpres
    · rw [hinFl]
      exact Nat.zero_le _
    · rw [hep]
      decide
  | @submit index d _ slot device request hslot hfree hdev hpres hname hshaped hpos =>
      obtain ⟨device', hdev'⟩ : ∃ device', device' = { device with
        nextSequence := device.nextSequence + 1
        nextOrderingEpoch := device.nextOrderingEpoch +
          if request.operation.isFence then 1 else 0 } :=
        ⟨_, rfl⟩
      rw [← hdev']
      have h1 : { t with devices := t.devices.set d device' }.Wf config := by
        rw [hdev']
        have hok := h.deviceOk device (mem_of_getElem? hdev)
        exact h.set_device hdev (fun hthere => ⟨hthere, rfl⟩) ⟨hok.depth, hok.epoch⟩
      refine h1.of_parts length_set rfl
        (forall_mem_set h.slotOk (slotOk_of_blank rfl rfl hshaped.bounded (fun _ => hshaped) rfl
          (fun _ => hpos) rfl rfl nofun rfl)) ?_ h1.deviceOk
      intro other hmem hother
      rcases mem_or_eq_of_mem_set hmem with hmem | rfl
      · exact .inr ⟨other, hmem, hother, rfl, fun _ device hthere => ⟨device, hthere⟩⟩
      · exact .inl ⟨d, _, getElem?_set_self (lt_length hdev),
          by rw [hdev']; exact hpres, by rw [hdev']; exact hname⟩
  | reject => exact h
  | @dispatch index d _ _ _ serial slot device device' _ hslot hdev hpres hname
      hdispatchable hdepth hslice hlba hsame =>
      have hok := (h.slotOk slot (mem_of_getElem? hslot)).sent hdispatchable.live
        hdispatchable.pendingOutcome hdispatchable.next serial
      have h1 := h.set_slot hslot hok fun _ => ⟨hdispatchable.live, rfl⟩
      refine h1.set_device hdev (fun _ => ⟨hsame.present.trans hpres, hsame.generation⟩)
        (hsame.deviceOk ⟨hdepth, ?_⟩)
      exact (h.deviceOk device (mem_of_getElem? hdev)).epoch
  | flush hdev hpres _ _ hidle hdepth _ _ _ _ _ hsame =>
    refine h.set_device hdev (fun _ => ⟨hsame.present.trans hpres, hsame.generation⟩)
      (hsame.deviceOk ⟨Nat.lt_of_le_of_lt (Nat.zero_le _) hdepth, ?_⟩)
    exact (h.deviceOk _ (mem_of_getElem? hdev)).epoch
  | @complete _ _ slot _ token _ status hslot hheld _ hdev hpres _ _ _ _ hch =>
    have hok := (h.slotOk slot (mem_of_getElem? hslot)).answered hheld hch status
    have hanswered := answered_answeredSlot config token.childIndex status hheld
    have h1 := h.set_slot hslot hok fun hlive => ⟨hanswered.live hlive, hanswered.device⟩
    have hdev' := h.deviceOk _ (mem_of_getElem? hdev)
    exact h1.set_device hdev (fun hthere => ⟨hthere, rfl⟩)
      ⟨Nat.le_trans (Nat.sub_le _ _) hdev'.depth, hdev'.epoch⟩
  | completeFlush hdev =>
    have hdev' := h.deviceOk _ (mem_of_getElem? hdev)
    exact h.set_device hdev (fun hthere => ⟨hthere, rfl⟩)
      ⟨Nat.le_trans (Nat.sub_le _ _) hdev'.depth, hdev'.epoch⟩
  | abort out hslot hlive _ hout =>
    exact h.set_slot hslot ((h.slotOk _ (mem_of_getElem? hslot)).abort hlive hout)
      fun _ => ⟨hlive, (ages_abort hlive out).device⟩
  | notify hslot _ _ _ _ hch =>
    exact h.set_slot hslot ((h.slotOk _ (mem_of_getElem? hslot)).notify hch)
      fun hlive => ⟨hlive, rfl⟩
  | @take index slot _ hslot =>
    refine h.set_slot hslot (slotOk_takenSlot config slot) fun hlive => ?_
    rw [takenSlot_isLive] at hlive
    cases hlive
  | @advance d device device' out hout hdev hpres _ hbnd hgen _ hcfg hinFl =>
      refine h.of_parts (length_map _) length_set ?_ ?_
        (forall_mem_set h.deviceOk ⟨by rw [hinFl]; exact Nat.zero_le _, hbnd⟩)
      · intro slot' hmem
        obtain ⟨slot, hslot, rfl⟩ := mem_map.mp hmem
        split
        · rename_i hfails
          exact (h.slotOk slot hslot).fail hfails.2 hout
        · exact h.slotOk slot hslot
      · -- what stays live belongs to another device
        intro slot' hmem hlive
        obtain ⟨slot, hslot, rfl⟩ := mem_map.mp hmem
        split at hlive
        · cases hlive
        rename_i hstays
        rw [if_neg hstays]
        refine .inr ⟨slot, hslot, hlive, rfl, fun i other hother => ?_⟩
        obtain ⟨hother, hthere, hname⟩ := hother
        refine ⟨other, (getElem?_set_ne ?_).trans hother, hthere, hname⟩
        rintro rfl
        cases hdev.symm.trans hother
        exact hstays ⟨hname, hlive⟩
  | tune hdevs =>
    exact h.map_devices _ (hdevs.imp fun _ _ hsame =>
      ⟨hsame.generation, hsame.present, hsame.deviceOk⟩)
  | begin _ hdevs =>
    refine h.map_devices _ (hdevs.imp fun _ _ hflush => ?_)
    rcases hflush with ⟨rfl, -⟩ | ⟨flush, rfl, -⟩
    · exact ⟨rfl, rfl, fun hok => hok⟩
    · exact ⟨rfl, rfl, fun hok => ⟨hok.depth, hok.epoch⟩⟩
  | force => exact { h with }

theorem Moves.wf (h : Moves config policy t events t') (hwf : t.Wf config) : t'.Wf config :=
  h.invariant hwf fun _ _ _ _ hwf hmove => hmove.wf hwf

theorem SameDevice.refl (device : DeviceSlot) : SameDevice device device :=
  ⟨rfl, rfl, rfl, rfl, rfl, rfl, rfl, rfl, rfl, rfl⟩

theorem sameDevice_refl (devices : List DeviceSlot) : List.Forall₂ SameDevice devices devices :=
  forall₂_same.mpr fun device _ => SameDevice.refl device

theorem Table.LastOf.of_ages {t t' : Table} {slot : RequestSlot}
    (hages : ∀ other ∈ t'.slots, ∃ other' ∈ t.slots, Ages other' other) (h : t.LastOf slot) :
    t'.LastOf slot := by
  intro other hmem hdev hseq
  obtain ⟨other', hmem', hage⟩ := hages other hmem
  have hold := h other' hmem' (hage.device.symm.trans hdev) (hage.sequence ▸ hseq)
  rw [Bool.eq_false_iff] at hold ⊢
  exact fun hlive => hold (hage.live hlive)

end Ginkgo.Kernel.AsyncBlock
