import Ginkgo.Kernel.AsyncBlock.Moves

/-!
# The priority queues

A request that waits for its next command has an entry in the queue of its priority.  The
selection looks at every entry of a queue, and its rounds visit every priority that can be
served.
-/

namespace Ginkgo.Kernel.AsyncBlock

open Ginkgo.Lib List Option

namespace PerPriority

variable {α : Type} (a : PerPriority α) (priority : BlockPriority) (x : α)

@[simp] theorem get_set_self : (a.set priority x).get priority = x := by
  cases priority <;> rfl

theorem get_set_of_ne {priority priority' : BlockPriority} (h : priority' ≠ priority) :
    (a.set priority x).get priority' = a.get priority' := by
  cases priority <;> cases priority' <;> first | rfl | exact absurd rfl h

@[simp] theorem set_get : a.set priority (a.get priority) = a := by
  cases priority <;> rfl

end PerPriority

/-- Either nothing in front is taken and all of it goes to the back, or one entry is. -/
theorem rotate_cases (test : QueueEntry → Option Nat) (front back : List QueueEntry) :
    (AsyncBlockQueue.rotate test front.length (front ++ back) = (none, back ++ front) ∧
      ∀ entry ∈ front, test entry = none) ∨
    ∃ before entry after index, front = before ++ entry :: after ∧ test entry = some index ∧
      AsyncBlockQueue.rotate test front.length (front ++ back) =
        (some index, after ++ back ++ before) := by
  induction front generalizing back with
  | nil => exact .inl ⟨by rw [append_nil]; rfl, nofun⟩
  | cons entry front ih =>
    rw [length_cons, cons_append, AsyncBlockQueue.rotate]
    cases htest : test entry with
    | some index => exact .inr ⟨[], entry, front, index, rfl, htest, by rw [append_nil]⟩
    | none =>
      simp only [append_assoc]
      rcases ih (back ++ [entry]) with ⟨hrotate, hnone⟩ |
        ⟨before, found, after, index, hfront, hfound, hrotate⟩
      · refine .inl ⟨by rw [hrotate, append_assoc]; rfl, fun other hmem => ?_⟩
        rcases mem_cons.mp hmem with rfl | hmem
        · exact htest
        · exact hnone other hmem
      · refine .inr ⟨entry :: before, found, after, index, by rw [hfront]; rfl, hfound, ?_⟩
        rw [hrotate, append_assoc, append_assoc]
        rfl

namespace AsyncBlockQueue

variable {s s' : AsyncBlockQueue} {deviceIndex nowNs : Nat} {priority : BlockPriority}
  {requireAged : Bool} {index : Nat} {slot : RequestSlot} {id : BlockDeviceId} {device : DeviceSlot}

/-! ## Entries -/

/-- Whoever waits has an entry. -/
structure Queued (s : AsyncBlockQueue) : Prop where
  size : s.slots.length < u32Max
  listed : ∀ index slot, s.slots[index]? = some slot → slot.queuedEntry = true →
    ∃ entry ∈ s.queues.get slot.priority, entry.id = .fromParts index slot.generation

/-- The entries of every other slot are still there. -/
def Keeps (index : Nat) (s s' : AsyncBlockQueue) : Prop :=
  ∀ priority, ∀ entry ∈ s.queues.get priority,
    (∀ generation, entry.id ≠ .fromParts index generation) → entry ∈ s'.queues.get priority

theorem Queued.index_lt (h : s.Queued) (hslot : s.slots[index]? = some slot) : index < u32Max :=
  Nat.lt_trans (lt_length hslot) h.size

theorem Queued.set (h : s.Queued) {slot' : RequestSlot} (hslot : s.slots[index]? = some slot)
    (hslots : s'.slots = s.slots.set index slot') (hkeeps : s.Keeps index s')
    (hlisted : slot'.queuedEntry = true → ∃ entry ∈ s'.queues.get slot'.priority,
      entry.id = .fromParts index slot'.generation) : s'.Queued := by
  refine ⟨by rw [hslots, length_set]; exact h.size, fun i other hother hent => ?_⟩
  rw [hslots] at hother
  rcases (getElem?_set_iff hslot slot' i other).mp hother with ⟨rfl, rfl⟩ | ⟨hne, hother⟩
  · exact hlisted hent
  · obtain ⟨entry, hmem, hid⟩ := h.listed i other hother hent
    refine ⟨entry, hkeeps _ entry hmem fun generation heq => hne ?_, hid⟩
    exact (BlockRequestId.fromParts_inj (h.index_lt hother) (h.index_lt hslot)
      (hid.symm.trans heq)).1

theorem Queued.of_eq (h : s.Queued) (hslots : s'.slots = s.slots) (hqs : s'.queues = s.queues) :
    s'.Queued := by
  refine ⟨by rw [hslots]; exact h.size, ?_⟩
  rw [hslots, hqs]
  exact h.listed

theorem requestIndex_eq_some {id : BlockRequestId} (h : s.requestIndex id = some index) :
    ∃ slot, s.slots[index]? = some slot ∧ id = .fromParts index slot.generation ∧
      slot.isHeld = true := by
  unfold requestIndex at h
  simp only [bind_eq_bind, bind_eq_some_iff] at h
  obtain ⟨i', hidx, slot, hslot, hite⟩ := h
  split at hite
  · rename_i hcond
    cases hite
    refine ⟨slot, hslot, ?_, ?_⟩
    · rw [hcond.1]
      exact BlockRequestId.eq_fromParts hidx
    · unfold RequestSlot.isHeld
      simp [hcond.2]
  · cases hite

theorem requestIndex_fromParts (hsize : s.slots.length < u32Max)
    (hslot : s.slots[index]? = some slot) (hheld : slot.isHeld = true) :
    s.requestIndex (.fromParts index slot.generation) = some index := by
  have hlt : index < u32Max := Nat.lt_trans (lt_length hslot) hsize
  unfold requestIndex BlockRequestId.index BlockRequestId.generation BlockRequestId.fromParts
  simp only [bind_eq_bind, tagIndex_packTag _ hlt, tagGeneration_packTag _ hlt, bind_some, hslot]
  unfold RequestSlot.isHeld at hheld
  simp only [Bool.and_eq_true, decide_eq_true_eq] at hheld
  rw [if_pos ⟨trivial, hheld⟩]

theorem deviceIndex_eq_some (h : s.deviceIndex id = some index) :
    ∃ device, s.table.Present id index device := by
  unfold deviceIndex at h
  simp only [bind_eq_bind, bind_eq_some_iff] at h
  obtain ⟨i', hidx, device, hdev, hite⟩ := h
  split at hite
  · rename_i hcond
    cases hite
    refine ⟨device, hdev, hcond.1, ?_⟩
    rw [hcond.2]
    exact BlockDeviceId.eq_fromParts hidx
  · cases hite

theorem deviceIndex_of_present (hsize : s.devices.length < u32Max)
    (h : s.table.Present id index device) : s.deviceIndex id = some index := by
  obtain ⟨hdev, hpres, rfl⟩ := h
  have hdev : s.devices[index]? = some device := hdev
  have hlt : index < u32Max := Nat.lt_trans (lt_length hdev) hsize
  unfold deviceIndex BlockDeviceId.index BlockDeviceId.generation BlockDeviceId.fromParts
  simp only [bind_eq_bind, tagIndex_packTag _ hlt, tagGeneration_packTag _ hlt, bind_some, hdev]
  rw [if_pos ⟨hpres, trivial⟩]

theorem isDispatchable_iff {slotIndex : Nat} :
    s.isDispatchable slotIndex deviceIndex = true ↔ ∃ slot device,
      s.slots[slotIndex]? = some slot ∧ s.devices[deviceIndex]? = some device ∧
        device.present = true ∧ s.table.Dispatchable slot := by
  unfold isDispatchable
  constructor
  · intro h
    split at h
    · rename_i slot device hslot hdev
      refine ⟨slot, device, hslot, hdev, ?_⟩
      split at h
      · cases h
      rename_i hready
      simp only [Bool.or_eq_true, Bool.not_eq_true', decide_eq_true_eq, not_or, Bool.not_eq_false,
        isSome_iff_ne_none, not_not, Nat.not_le] at hready
      obtain ⟨⟨⟨hlive, hpend⟩, hnext⟩, hpres⟩ := hready
      refine ⟨hpres, hlive, hpend, hnext, fun hfence => ?_, fun hdata => ?_⟩
      · rw [if_pos hfence] at h
        simpa [Table.LastOf] using h
      · rw [if_neg (by rw [hdata]; exact nofun)] at h
        simpa [Table.Unfenced] using h
    · cases h
  · rintro ⟨slot, device, hslot, hdev, hpres, hready⟩
    simp only [hslot, hdev, hpres, hready.live, hready.pendingOutcome, Nat.not_le.mpr hready.next,
      isSome_none, decide_false, Bool.not_true, Bool.or_self, Bool.false_eq_true, if_false]
    split
    · rename_i hfence
      simpa [Table.LastOf] using hready.fence hfence
    · rename_i hdata
      simpa [Table.Unfenced] using hready.data (Bool.eq_false_iff.mpr hdata)

theorem candidate_eq_some {entry : QueueEntry}
    (h : s.candidate deviceIndex priority nowNs requireAged entry = some index) :
    ∃ slot, s.slots[index]? = some slot ∧ entry.id = .fromParts index slot.generation ∧
      slot.queuedEntry = true ∧ slot.device.index = some deviceIndex ∧ slot.priority = priority ∧
        s.isDispatchable index deviceIndex = true := by
  obtain ⟨hidx, htest⟩ := filter_eq_some_iff.mp h
  obtain ⟨slot, hslot, hid, -⟩ := requestIndex_eq_some hidx
  rw [hslot] at htest
  simp only [any_some, Bool.and_eq_true, decide_eq_true_eq] at htest
  exact ⟨slot, hslot, hid, htest.1.1.1.1, htest.1.1.1.2, htest.1.1.2, htest.2⟩

theorem Queued.candidate (h : s.Queued) (hwf : s.table.Wf s.config)
    (hslot : s.slots[index]? = some slot) (hdev : slot.device.index = some deviceIndex)
    (hready : s.isDispatchable index deviceIndex = true) (nowNs : Nat) :
    ∃ entry ∈ s.queues.get slot.priority,
      s.candidate deviceIndex slot.priority nowNs false entry = some index := by
  obtain ⟨slot', device, hslot', -, -, hdispatchable⟩ := isDispatchable_iff.mp hready
  cases hslot.symm.trans hslot'
  have hent : slot.queuedEntry = true := (hwf.slotOk slot (mem_of_getElem? hslot)).entry.mpr
      ⟨hdispatchable.live, hdispatchable.pendingOutcome, hdispatchable.next⟩
  obtain ⟨entry, hmem, hid⟩ := h.listed index slot hslot hent
  refine ⟨entry, hmem, ?_⟩
  unfold AsyncBlockQueue.candidate
  rw [hid, requestIndex_fromParts h.size hslot (RequestSlot.held_of_isLive hdispatchable.live)]
  refine filter_eq_some_iff.mpr ⟨rfl, ?_⟩
  rw [hslot]
  simp [hent, hdev, hready]

/-! ## Taking an entry -/

/-- The device with other credits and another place in the rounds. -/
def Recredited (device device' : DeviceSlot) : Prop :=
  ∃ credits fairCursor, device' = { device with credits := credits, fairCursor := fairCursor }

def Recredits (s s' : AsyncBlockQueue) : Prop :=
  ∃ devices, List.Forall₂ Recredited s.devices devices ∧ s' = { s with devices := devices }

theorem Recredited.refl (device : DeviceSlot) : Recredited device device := ⟨_, _, rfl⟩

theorem Recredits.refl (s : AsyncBlockQueue) : Recredits s s :=
  ⟨s.devices, forall₂_same.mpr fun device _ => .refl device, rfl⟩

theorem recredited_trans {devices devices' devices'' : List DeviceSlot}
    (h : List.Forall₂ Recredited devices devices')
    (h' : List.Forall₂ Recredited devices' devices'') :
    List.Forall₂ Recredited devices devices'' := by
  refine forall₂_comp ?_ h h'
  rintro a b c ⟨_, _, rfl⟩ ⟨credits, fairCursor, rfl⟩
  exact ⟨credits, fairCursor, rfl⟩

theorem Recredits.trans {s1 s2 s3 : AsyncBlockQueue} (h : Recredits s1 s2) (h' : Recredits s2 s3) :
    Recredits s1 s3 := by
  obtain ⟨devices, hdevs, rfl⟩ := h
  obtain ⟨devices', hdevs', rfl⟩ := h'
  exact ⟨devices', recredited_trans hdevs hdevs', rfl⟩

theorem Recredits.set (hdev : s.devices[deviceIndex]? = some device) (credits : PerPriority Nat)
    (fc : BlockPriority) :
    Recredits s { s with
      devices := s.devices.set deviceIndex { device with credits := credits, fairCursor := fc } } :=
  ⟨_, forall₂_set_self Recredited.refl hdev ⟨credits, fc, rfl⟩, rfl⟩

theorem Recredits.modify {f : DeviceSlot → DeviceSlot} (hf : ∀ device, Recredited device (f device))
    (s : AsyncBlockQueue) (deviceIndex : Nat) : Recredits s (s.modifyDevice deviceIndex f) :=
  ⟨_, forall₂_modify_self Recredited.refl hf s.devices deviceIndex, rfl⟩

theorem Recredits.isDispatchable (h : Recredits s s') (slotIndex deviceIndex : Nat) :
    s'.isDispatchable slotIndex deviceIndex = s.isDispatchable slotIndex deviceIndex := by
  obtain ⟨devices, hdevs, rfl⟩ := h
  unfold AsyncBlockQueue.isDispatchable
  cases hdev : s.devices[deviceIndex]? with
  | none =>
    have hnone : devices[deviceIndex]? = none := by
      rw [getElem?_eq_none_iff] at hdev ⊢
      rwa [← hdevs.length_eq]
    simp only [hnone]
  | some device =>
    obtain ⟨device', hdev', credits, fc, rfl⟩ := forall₂_getElem? hdevs hdev
    simp only [hdev']
    cases s.slots[slotIndex]? <;> rfl

theorem Recredits.candidate (h : Recredits s s') (deviceIndex : Nat) (priority : BlockPriority)
    (nowNs : Nat) (requireAged : Bool) :
    s'.candidate deviceIndex priority nowNs requireAged =
      s.candidate deviceIndex priority nowNs requireAged := by
  have hready := h.isDispatchable
  obtain ⟨devices, hdevs, rfl⟩ := h
  unfold AsyncBlockQueue.candidate
  simp only [hready]
  rfl

/-- The request at `index` was taken out of the queue of its priority. -/
structure Picked (deviceIndex index : Nat) (priority : BlockPriority) (s s' : AsyncBlockQueue) :
    Prop where
  slot : ∃ slot, s.slots[index]? = some slot ∧ slot.device.index = some deviceIndex ∧
    slot.priority = priority ∧ s'.slots = s.slots.set index { slot with queuedEntry := false }
  ready : s.isDispatchable index deviceIndex = true
  keeps : s.Keeps index s'
  devices : List.Forall₂ Recredited s.devices s'.devices
  config : s'.config = s.config
  shutdown : s'.shutdown = s.shutdown

theorem Picked.of_recredits {s1 s2 s3 : AsyncBlockQueue} (h1 : Recredits s s1)
    (h : Picked deviceIndex index priority s1 s2) (h2 : Recredits s2 s3) :
    Picked deviceIndex index priority s s3 := by
  have hready := h1.isDispatchable index deviceIndex
  obtain ⟨devices, hdevs, rfl⟩ := h1
  obtain ⟨devices', hdevs', rfl⟩ := h2
  exact { h with
    ready := hready.symm.trans h.ready
    devices := recredited_trans (recredited_trans hdevs h.devices) hdevs' }

theorem takeEligible_cases (s : AsyncBlockQueue) (deviceIndex : Nat) (priority : BlockPriority)
    (nowNs : Nat) (requireAged : Bool) :
    (s.takeEligible deviceIndex priority nowNs requireAged = (none, s) ∧
      ∀ entry ∈ s.queues.get priority,
        s.candidate deviceIndex priority nowNs requireAged entry = none) ∨
    ∃ index s', s.takeEligible deviceIndex priority nowNs requireAged = (some index, s') ∧
      Picked deviceIndex index priority s s' := by
  unfold takeEligible
  simp only
  have hrotate := rotate_cases (s.candidate deviceIndex priority nowNs requireAged)
    (s.queues.get priority) []
  rw [append_nil, nil_append] at hrotate
  rcases hrotate with ⟨hrotate, hnone⟩ | ⟨before, entry, after, index, hq, hent, hrotate⟩
  · rw [hrotate]
    exact .inl ⟨by simp only [PerPriority.set_get], hnone⟩
  obtain ⟨slot, hslot, hid, -, hdev, hprio, hready⟩ := candidate_eq_some hent
  rw [hrotate]
  refine .inr ⟨index, _, rfl, ⟨slot, hslot, hdev, hprio, ?_⟩, hready, ?_,
    forall₂_same.mpr fun device _ => .refl device, rfl, rfl⟩
  · exact modify_eq_set hslot _
  intro priority' other hmem hother
  change other ∈ (s.queues.set priority _).get priority'
  by_cases hsame : priority' = priority
  · subst hsame
    rw [hq] at hmem
    rw [PerPriority.get_set_self, append_nil]
    rcases mem_append.mp hmem with hbef | hrest
    · exact mem_append_right _ hbef
    · rcases mem_cons.mp hrest with rfl | hafter
      · exact absurd hid (hother _)
      · exact mem_append_left _ hafter
  · rw [PerPriority.get_set_of_ne _ _ hsame]
    exact hmem

/-! ## The rounds -/

/-- The rounds it takes at most until the priority is served, if nothing else is before.  Where
the priority has no credit left, the other two are visited until all are refilled. -/
def roundsTo (priority fairCursor : BlockPriority) (credits : PerPriority Nat) : Nat :=
  if credits.get priority ≠ 0 ∨
      credits.get priority.next = 0 ∧ credits.get priority.next.next = 0 then
    if fairCursor = priority then 1 else if fairCursor.next = priority then 2 else 3
  else if fairCursor = priority then 4
  else if fairCursor.next = priority then
    if credits.get priority.next = 0 then 2 else 5
  else 3

theorem roundsTo_le (priority fc : BlockPriority) (credits : PerPriority Nat) :
    roundsTo priority fc credits ≤ 6 := by
  unfold roundsTo
  repeat' split
  all_goals decide

theorem roundsTo_skip {priority fc : BlockPriority} {credits : PerPriority Nat}
    (hskip : credits.get fc = 0) (hcredits : credits ≠ .all 0) :
    roundsTo priority fc.next credits < roundsTo priority fc credits := by
  obtain ⟨a, b, c⟩ := credits
  cases priority <;> cases fc <;>
    simp only [roundsTo, PerPriority.get, PerPriority.all, BlockPriority.next]
      at hskip hcredits ⊢ <;> grind

theorem roundsTo_miss {priority fc : BlockPriority} (credits : PerPriority Nat)
    {weights : PerPriority Nat} (hweights : ∀ priority, weights.get priority ≠ 0)
    (hne : fc ≠ priority) :
    roundsTo priority fc.next ((if credits = .all 0 then weights else credits).set fc 0) <
      roundsTo priority fc credits := by
  have hprio := hweights priority
  split
  all_goals
    rename_i hzero
    cases priority <;> cases fc <;>
      simp only [roundsTo, PerPriority.get, PerPriority.set, BlockPriority.next]
        at hzero hprio hne ⊢ <;> grind

/-- The priority has a request to dispatch. -/
def Eligible (deviceIndex nowNs : Nat) (s : AsyncBlockQueue) (priority : BlockPriority) : Prop :=
  ∃ entry ∈ s.queues.get priority, s.candidate deviceIndex priority nowNs false entry ≠ none

theorem Recredits.eligible (h : Recredits s s') :
    Eligible deviceIndex nowNs s' priority ↔ Eligible deviceIndex nowNs s priority := by
  unfold Eligible
  rw [h.candidate]
  obtain ⟨_, _, rfl⟩ := h
  rfl

theorem refillCredits_eq (weights : PerPriority Nat) (device : DeviceSlot) :
    refillCredits weights device =
      { device with credits := if device.credits = .all 0 then weights else device.credits } := by
  unfold refillCredits
  split <;> rfl

variable (hweights : ∀ priority, s.config.priorityWeights.get priority ≠ 0)
include hweights

/-- If no request is found, then no priority could have been served in so many rounds. -/
theorem selectFair_cases (deviceIndex nowNs rounds : Nat) :
    (∃ s', s.selectFair deviceIndex nowNs rounds = (none, s') ∧ Recredits s s' ∧
      ∀ device priority, s.devices[deviceIndex]? = some device →
        Eligible deviceIndex nowNs s priority →
          rounds < roundsTo priority device.fairCursor device.credits) ∨
    ∃ index priority s', s.selectFair deviceIndex nowNs rounds = (some index, s') ∧
      Picked deviceIndex index priority s s' := by
  induction rounds generalizing s with
  | zero =>
    refine .inl ⟨s, rfl, .refl s, fun device priority _ _ => ?_⟩
    unfold roundsTo
    repeat' split
    all_goals decide
  | succ rounds ih =>
    rw [selectFair]
    cases hdev : s.devices[deviceIndex]? with
    | none => exact .inl ⟨s, rfl, .refl s, nofun⟩
    | some device =>
      simp only [refillCredits_eq]
      generalize hcredits : (if device.credits = .all 0 then s.config.priorityWeights
        else device.credits) = credits
      have hlt := lt_length hdev
      have htuned := Recredits.set hdev credits device.fairCursor.next
      generalize hs1 : { s with devices := s.devices.set deviceIndex _ } = s1
        at htuned ⊢
      have hdev1 : s1.devices[deviceIndex]? = some { device with
          credits := credits, fairCursor := device.fairCursor.next } := by
        rw [← hs1]
        exact getElem?_set_self hlt
      have hcfg1 : s1.config = s.config := by rw [← hs1]
      split
      · -- no credit: the others are not yet used up
        rename_i hskip
        have hleft : device.credits ≠ .all 0 := by
          rintro hzero
          rw [if_pos hzero] at hcredits
          rw [← hcredits] at hskip
          exact hweights _ hskip
        rw [if_neg hleft] at hcredits
        subst hcredits
        rcases ih (by rw [hcfg1]; exact hweights) with
          ⟨s', hsel, hsame, hmissed⟩ | ⟨index, priority, s', hsel, hpicked⟩
        · refine .inl ⟨s', hsel, htuned.trans hsame, ?_⟩
          rintro device' priority hdev' helig
          obtain rfl := some.inj hdev'
          have hrounds := hmissed _ priority hdev1 (htuned.eligible.mpr helig)
          exact Nat.lt_of_le_of_lt hrounds (roundsTo_skip hskip hleft)
        · exact .inr ⟨index, priority, s', hsel, hpicked.of_recredits htuned (.refl s')⟩
      · rcases takeEligible_cases s1 deviceIndex device.fairCursor nowNs false with
          ⟨htake, hnone⟩ | ⟨index, s2, htake, hpicked⟩
        · -- nothing to serve: the credit of this priority is given up
          rw [htake]
          simp only
          have htuned2 := Recredits.modify (f := fun device' => { device' with
            credits := device'.credits.set device.fairCursor 0 })
            (fun _ => ⟨_, _, rfl⟩) s1 deviceIndex
          generalize hs2 : s1.modifyDevice deviceIndex _ = s2 at htuned2 ⊢
          have hdev2 : s2.devices[deviceIndex]? = some { device with
              credits := credits.set device.fairCursor 0
              fairCursor := device.fairCursor.next } := by
            rw [← hs2]
            unfold modifyDevice
            rw [getElem?_modify_eq, hdev1]
            rfl
          have hcfg2 : s2.config = s.config := by rw [← hs2, ← hcfg1]; rfl
          rcases ih (by rw [hcfg2]; exact hweights) with
            ⟨s', hsel, hsame, hmissed⟩ | ⟨index, priority, s', hsel, hpicked⟩
          · refine .inl ⟨s', hsel, (htuned.trans htuned2).trans hsame, ?_⟩
            rintro device' priority hdev' helig
            obtain rfl := some.inj hdev'
            have helig1 := htuned.eligible.mpr helig
            have hne : device.fairCursor ≠ priority := by
              rintro rfl
              obtain ⟨entry, hmem, hcandidate⟩ := helig1
              exact hcandidate (hnone entry hmem)
            have hrounds := hmissed _ priority hdev2 (htuned2.eligible.mpr helig1)
            have hmiss := roundsTo_miss device.credits hweights hne
            rw [hcredits] at hmiss
            exact Nat.lt_of_le_of_lt hrounds hmiss
          · exact .inr ⟨index, priority, s', hsel,
              hpicked.of_recredits (htuned.trans htuned2) (.refl s')⟩
        · rw [htake]
          exact .inr ⟨index, device.fairCursor, _, rfl,
            hpicked.of_recredits htuned (.modify (fun _ => ⟨_, _, rfl⟩) _ _)⟩

/-- The selection finds a request whenever there is one.  Where background work was passed over
for too long, it comes first. -/
theorem selectRequest_cases (hdev : s.devices[deviceIndex]? = some device) (nowNs : Nat) :
    (∃ s', s.selectRequest deviceIndex nowNs = (none, s') ∧ Recredits s s' ∧
      ∀ priority, ¬Eligible deviceIndex nowNs s priority) ∨
    ∃ index priority s', s.selectRequest deviceIndex nowNs = (some index, s') ∧
      Picked deviceIndex index priority s s' ∧ (Eligible deviceIndex nowNs s .background →
        s.config.backgroundProgressInterval.toNat ≤ device.nonBackgroundDispatches →
          priority = .background) := by
  unfold selectRequest
  simp only [hdev, any_some, decide_eq_true_eq]
  rcases takeEligible_cases s deviceIndex .background nowNs true with
    ⟨htake, -⟩ | ⟨index, s', htake, hpicked⟩
  · rw [htake]
    simp only
    by_cases hforce : s.config.backgroundProgressInterval.toNat ≤ device.nonBackgroundDispatches
    · rw [if_pos hforce]
      rcases takeEligible_cases s deviceIndex .background nowNs false with
        ⟨htake', hnone⟩ | ⟨index, s', htake', hpicked⟩
      · rw [htake']
        simp only
        rcases selectFair_cases hweights deviceIndex nowNs 6 with
          ⟨s', hsel, hsame, hmissed⟩ | ⟨index, priority, s', hsel, hpicked⟩
        · refine .inl ⟨s', hsel, hsame, fun priority helig => ?_⟩
          exact absurd (hmissed device priority hdev helig) (Nat.not_lt.mpr (roundsTo_le _ _ _))
        · refine .inr ⟨index, priority, s', hsel, hpicked, fun helig _ => ?_⟩
          obtain ⟨entry, hmem, hcandidate⟩ := helig
          exact absurd (hnone entry hmem) hcandidate
      · rw [htake']
        exact .inr ⟨index, .background, s', rfl, hpicked, fun _ _ => rfl⟩
    · rw [if_neg hforce]
      simp only
      rcases selectFair_cases hweights deviceIndex nowNs 6 with
        ⟨s', hsel, hsame, hmissed⟩ | ⟨index, priority, s', hsel, hpicked⟩
      · refine .inl ⟨s', hsel, hsame, fun priority helig => ?_⟩
        exact absurd (hmissed device priority hdev helig) (Nat.not_lt.mpr (roundsTo_le _ _ _))
      · exact .inr ⟨index, priority, s', hsel, hpicked, fun _ h => absurd h hforce⟩
  · rw [htake]
    exact .inr ⟨index, .background, s', rfl, hpicked, fun _ _ => rfl⟩

end AsyncBlockQueue

end Ginkgo.Kernel.AsyncBlock
