import Ginkgo.Kernel.AsyncBlock.Effects
import Ginkgo.Kernel.AsyncBlock.Split

/-!
# Every call is a run of moves

The queue's calls refine the moves of its table, and keep an entry for every request that
waits.
-/

namespace Ginkgo.Kernel.AsyncBlock.AsyncBlockQueue

open Ginkgo.Lib List Option RequestSlot

variable {policy : Policy} {s s' s'' : AsyncBlockQueue} {events events' : List Event}
  {slots : List RequestSlot} {config : QueueConfig} {index nowNs deviceIndex : Nat}
  {slot : RequestSlot} {out : RequestOutcome} {device : DeviceSlot}

/-- What every reachable queue satisfies. -/
structure Sane (s : AsyncBlockQueue) : Prop where
  valid : s.config.isValid = true
  queued : s.Queued
  wf : s.table.Wf s.config

/-- The call does to the table what a run of moves can do. -/
structure Refines (policy : Policy) (s : AsyncBlockQueue) (events : List Event)
    (s' : AsyncBlockQueue) : Prop where
  config : s'.config = s.config
  queued : s'.Queued
  moves : Moves s.config policy s.table events s'.table

theorem Refines.refl (hs : s.Sane) : Refines policy s [] s := ⟨rfl, hs.queued, .refl _⟩

theorem Refines.trans (h : Refines policy s events s') (h' : Refines policy s' events' s'') :
    Refines policy s (events ++ events') s'' :=
  ⟨h'.config.trans h.config, h'.queued, h.moves.trans (h.config ▸ h'.moves)⟩

theorem Refines.sane (h : Refines policy s events s') (hs : s.Sane) : s'.Sane := by
  refine ⟨?_, h.queued, ?_⟩
  · rw [h.config]
    exact hs.valid
  · rw [h.config]
    exact Moves.wf h.moves hs.wf

/-- The end of the shutdown is a move of its own. -/
theorem Leaves.tunes (h : Leaves s s' slots) :
    Move config policy { s.table with slots := slots } [] s'.table := by
  have htab : s'.table = { slots := slots, devices := s.devices, shutdown := s'.shutdown } := by
    unfold table
    rw [h.slots, h.devices]
  rw [htab]
  refine Move.tune (sameDevice_refl _) ?_
  rcases h.shutdown with hsame | ⟨hqsc, hdrained, hidle⟩
  · exact .inl hsame
  · rw [htab] at hidle
    exact .inr ⟨hqsc, hdrained, ⟨hidle.requests, hidle.flushes⟩⟩

theorem Leaves.refines (h : Leaves s s' slots) (hqueued : s.Queued)
    (hmoves : Moves s.config policy s.table events { s.table with slots := slots }) :
    Refines policy s events s' :=
  ⟨h.config, h.queued hqueued, hmoves.quiet h.tunes⟩

theorem updateShutdownState_refines (hqueued : s.Queued) :
    Refines policy s [] s.updateShutdownState :=
  (updateShutdownState_leaves s).refines hqueued (.refl _)

/-! ## Cancelling and expiry -/

theorem abortRequest_refines (hs : s.Sane) (hslot : s.slots[index]? = some slot)
    (hlive : slot.isLive = true) (hnone : slot.pendingOutcome = none) (hout : out ≠ .success)
    (hpol : policy.fences = true → slot.operation.isFence = true → s.table.LastOf slot) :
    Refines policy s [] (s.abortRequest index out) :=
  (abortRequest_leaves hslot (not_terminal_of_isLive hlive) out).refines hs.queued
    (.single (.abort out hslot hlive hnone hout hpol))

/-- No fence is cancelled while an earlier request is live. -/
def CancelKeepsFences (id : BlockRequestId) (s : AsyncBlockQueue) : Prop :=
  ∀ index slot, s.requestIndex id = some index → s.slots[index]? = some slot →
    slot.isLive = true → slot.pendingOutcome = none → slot.operation.isFence = true →
      s.table.LastOf slot

theorem cancel_refines (hs : s.Sane) (id : BlockRequestId)
    (hpol : policy.fences = true → s.CancelKeepsFences id) :
    Refines policy s [] (s.cancel id).2 := by
  unfold cancel
  cases hidx : s.requestIndex id with
  | none => exact .refl hs
  | some index =>
    obtain ⟨slot, hslot, -, hheld⟩ := requestIndex_eq_some hidx
    simp only [hslot]
    have habort : slot.isLive = true → slot.pendingOutcome.isSome = false →
        Refines policy s [] (s.abortRequest index .cancelled) := by
      intro hlive hnone
      have hnone : slot.pendingOutcome = none := by
        rwa [isSome_eq_false_iff, isNone_iff_eq_none] at hnone
      exact abortRequest_refines hs hslot hlive hnone nofun fun hfences hfence =>
        hpol hfences index slot hidx hslot hlive hnone hfence
    cases hst : slot.state with
    | terminal | free | retired => exact .refl hs
    | queued | active =>
      simp only
      split
      · exact .refl hs
      rename_i hnone
      have hlive : slot.isLive = true := by
        unfold isLive
        rw [hst]
        rfl
      split <;> exact habort hlive (Bool.eq_false_iff.mpr hnone)

/-- A slot after the deadlines were looked at. -/
def expiredSlot (nowNs : Nat) (slot : RequestSlot) : RequestSlot :=
  if expires nowNs slot then slot.abort .timedOut else slot

theorem ages_expiredSlot (nowNs : Nat) (slot : RequestSlot) :
    Ages slot (expiredSlot nowNs slot) := by
  unfold expiredSlot
  split
  · rename_i hexpires
    unfold expires at hexpires
    simp only [Bool.and_eq_true] at hexpires
    exact ages_abort hexpires.1.1 .timedOut
  · exact .refl slot

/-- No fence expires while an earlier request is live. -/
def ExpiryKeepsFences (nowNs : Nat) (s : AsyncBlockQueue) : Prop :=
  ∀ slot ∈ s.slots, expires nowNs slot = true → slot.operation.isFence = true → s.table.LastOf slot

theorem expireSlot_leaves (hslot : s.slots[index]? = some slot) (report : TimeoutReport) :
    Leaves s (expireSlot nowNs (report, s) index).2
      (s.slots.set index (expiredSlot nowNs slot)) := by
  unfold expireSlot expiredSlot
  simp only [hslot]
  split
  · rename_i hexpires
    unfold expires at hexpires
    simp only [Bool.and_eq_true] at hexpires
    exact abortRequest_leaves hslot (not_terminal_of_isLive hexpires.1.1) .timedOut
  · rw [set_getElem?_self hslot]
    exact .refl s

theorem expireSlots_leaves (nowNs : Nat) (s : AsyncBlockQueue) {count : Nat}
    (hcnt : count ≤ s.slots.length) :
    Leaves s ((range count).foldl (expireSlot nowNs) (⟨0, 0⟩, s)).2
      (mapTake (expiredSlot nowNs) count s.slots) :=
  foldl_leaves (fun a : TimeoutReport × AsyncBlockQueue => a.2) (expireSlot nowNs)
    (fun _ _ _ hslot => expireSlot_leaves hslot _) (⟨0, 0⟩, s) hcnt

theorem expireDeadlines_leaves (nowNs : Nat) (s : AsyncBlockQueue) :
    Leaves s (s.expireDeadlines nowNs).2 (s.slots.map (expiredSlot nowNs)) := by
  have hall := expireSlots_leaves nowNs s (Nat.le_refl _)
  rw [mapTake_length] at hall
  exact hall

theorem expireDeadlines_refines (hs : s.Sane) (nowNs : Nat)
    (hpol : policy.fences = true → s.ExpiryKeepsFences nowNs) :
    Refines policy s [] (s.expireDeadlines nowNs).2 := by
  -- the first `count` slots have been looked at
  have hcnt : ∀ count ≤ s.slots.length,
      Refines policy s [] ((range count).foldl (expireSlot nowNs) (⟨0, 0⟩, s)).2 := by
    intro count hle
    induction count with
    | zero => exact .refl hs
    | succ count ih =>
      have ih := ih (Nat.le_of_succ_le hle)
      have hleaves := expireSlots_leaves nowNs s (Nat.le_of_succ_le hle)
      rw [range_succ, foldl_append, foldl_cons]
      generalize (range count).foldl (expireSlot nowNs) (⟨0, 0⟩, s) = a at ih hleaves ⊢
      obtain ⟨report, s1⟩ := a
      obtain ⟨slot, hslot⟩ : ∃ slot, s.slots[count]? = some slot := ⟨_, getElem?_eq_getElem hle⟩
      have hslot1 : s1.slots[count]? = some slot := by
        rw [hleaves.slots, getElem?_mapTake_self]
        exact hslot
      unfold expireSlot
      simp only [hslot1]
      split
      · rename_i hexpires
        have hparts := hexpires
        unfold expires at hparts
        simp only [Bool.and_eq_true, isNone_iff_eq_none] at hparts
        refine ih.trans (abortRequest_refines (ih.sane hs) hslot1 hparts.1.1 hparts.1.2 nofun ?_)
        intro hfences hfence
        have hlast := hpol hfences _ (mem_of_getElem? hslot) hexpires hfence
        refine hlast.of_ages fun other hmem => ?_
        rw [table_slots, hleaves.slots] at hmem
        obtain ⟨other', hmem', rfl | rfl⟩ := mem_mapTake hmem
        · exact ⟨other, hmem', .refl other⟩
        · exact ⟨other', hmem', ages_expiredSlot nowNs other'⟩
      · exact ih
  exact hcnt _ (Nat.le_refl _)

theorem unnotifiedChild_eq_some {child serial : Nat}
    (h : unnotifiedChild slot = some (child, serial)) :
    slot.children[child]? = some (.inFlight serial false) := by
  obtain ⟨child', -, hch⟩ := exists_of_findSome?_eq_some h
  split at hch
  · rename_i hst
    obtain ⟨rfl, rfl⟩ := Prod.mk.inj (some.inj hch)
    exact hst
  · cases hch

theorem cancelTarget_eq_some {device : BlockDeviceId} {child serial : Nat}
    (h : s.cancelTarget device = some (index, slot, child, serial)) :
    s.slots[index]? = some slot ∧ slot.device = device ∧ slot.pendingOutcome.isSome = true ∧
      unnotifiedChild slot = some (child, serial) := by
  obtain ⟨i', -, htgt⟩ := exists_of_findSome?_eq_some h
  simp only [bind_eq_bind, bind_eq_some_iff] at htgt
  obtain ⟨slot', hslot, htgt⟩ := htgt
  split at htgt
  · cases htgt
  rename_i hcond
  obtain ⟨⟨child', serial'⟩, hch, heq⟩ := map_eq_some_iff.mp htgt
  obtain ⟨rfl, rfl, rfl, rfl⟩ := heq
  simp only [not_or, not_not, Bool.not_eq_true, isNone_eq_false_iff] at hcond
  exact ⟨hslot, hcond.1, hcond.2, hch⟩

theorem pollCancel_refines (hs : s.Sane) (device : BlockDeviceId) :
    Refines policy s ((s.pollCancel device).1.toList.map .cancelling) (s.pollCancel device).2 := by
  unfold pollCancel
  split
  · exact .refl hs
  rename_i dslot hdevSlot
  obtain ⟨deviceIndex, hidx, hdev⟩ := bind_eq_some_iff.mp hdevSlot
  obtain ⟨dslot', hpres⟩ := deviceIndex_eq_some hidx
  cases hdev.symm.trans hpres.1
  split
  · exact .refl hs
  rename_i index slot child serial htgt
  obtain ⟨hslot, rfl, -, hunnotified⟩ := cancelTarget_eq_some htgt
  have hch := unnotifiedChild_eq_some hunnotified
  have hok := hs.wf.slotOk slot (mem_of_getElem? hslot)
  have hheld : slot.isHeld = true := by
    by_contra hfree
    have hnext := hok.blank (Bool.eq_false_iff.mpr hfree)
    have hlt := hok.child_lt hch
    omega
  have hleaves := set_leaves hslot
    { slot with children := slot.children.set child (.inFlight serial true) }
    (fun hlive => hlive) fun hent => ⟨hent, rfl, rfl⟩
  exact hleaves.refines hs.queued (.single (.notify hslot hheld hdev hpres.2.1 hpres.2.2 hch))

/-! ## Completion -/

theorem bind_map_mk_eq_some {α β : Type} {o : Option α} {f : α → Option β} {a : α} {b : β} :
    (o.bind fun a => (f a).map (a, ·)) = some (a, b) ↔ o = some a ∧ f a = some b := by
  simp only [bind_eq_some_iff, map_eq_some_iff]
  grind

theorem exists_of_requestIndex_bind {id : BlockRequestId}
    (h : ((s.requestIndex id).bind fun index => (s.slots[index]?).map (index, ·)) =
      some (index, slot)) : s.slots[index]? = some slot ∧ id = .fromParts index slot.generation ∧
        slot.isHeld = true := by
  obtain ⟨hidx, hslot⟩ := bind_map_mk_eq_some.mp h
  obtain ⟨slot1, hslot1, hreq⟩ := requestIndex_eq_some hidx
  cases hslot.symm.trans hslot1
  exact ⟨hslot, hreq⟩

theorem takeCompletion_refines (hs : s.Sane) (id : BlockRequestId) :
    Refines policy s ((s.takeCompletion id).1.toList.map .taken) (s.takeCompletion id).2 := by
  unfold takeCompletion
  split
  · exact .refl hs
  rename_i index slot hfound
  obtain ⟨hslot, rfl, -⟩ := exists_of_requestIndex_bind hfound
  split
  · exact .refl hs
  rename_i hterm
  split
  · exact .refl hs
  rename_i out hout
  have hleaves := set_leaves hslot (takenSlot slot) (by
    unfold takenSlot
    split <;> exact nofun) (by
    unfold takenSlot
    split <;> exact nofun)
  exact hleaves.refines hs.queued (.single (.take hslot (not_not.mp hterm) hout))

theorem finish_leaves (hslot : s.slots[index]? = some slot)
    (hent : slot.state = .terminal → slot.queuedEntry = false) :
    Leaves s
      (if slot.inFlight = 0 ∧ (slot.pendingOutcome.isSome ∨ slot.nextChild = slot.childCount) then
        s.markTerminal index (slot.pendingOutcome.getD .success) else s)
      (s.slots.set index slot.finish) := by
  unfold finish
  by_cases hlast : slot.inFlight = 0 ∧
      (slot.pendingOutcome.isSome ∨ slot.nextChild = slot.childCount)
  · rw [if_pos hlast]
    by_cases hst : slot.state = .terminal
    · rw [if_neg (fun h => h.1 hst), set_getElem?_self hslot]
      unfold markTerminal removeQueuedEntry
      simp only [hslot, hent hst, Bool.false_eq_true, if_false, hst]
      exact .refl s
    · rw [if_pos ⟨hst, hlast⟩]
      exact markTerminal_leaves hslot hst _
  · rw [if_neg hlast, if_neg (fun h => hlast h.2), set_getElem?_self hslot]
    exact .refl s

theorem dropEntry_leaves {child : Nat} {status : HardwareStatus} {slot' : RequestSlot}
    (hok : SlotOk config slot) (hdone : completedSlot config child status slot = slot')
    (hslot : s.slots[index]? = some slot') : Leaves s
      (if status ≠ .success ∧ slot.pendingOutcome.isNone then s.removeQueuedEntry index else s)
      (s.slots.set index { slot' with
        queuedEntry := slot'.queuedEntry && slot'.pendingOutcome.isNone }) := by
  have hkeep : slot.queuedEntry = true → slot.pendingOutcome.isNone = true := fun hent => by
    rw [(hok.entry.mp hent).2.1]
    rfl
  by_cases hfails : status ≠ .success ∧ slot.pendingOutcome.isNone
  · rw [if_pos hfails]
    have hsome : slot'.pendingOutcome.isNone = false := by
      rw [← hdone]
      cases status with
      | success => exact absurd rfl hfails.1
      | ioError => rfl
      | unsupported => rfl
    rw [hsome, Bool.and_false]
    exact removeQueuedEntry_leaves hslot
  · rw [if_neg hfails]
    have hent : (slot'.queuedEntry && slot'.pendingOutcome.isNone) = slot'.queuedEntry := by
      have hqueued : slot'.queuedEntry = slot.queuedEntry := by
        rw [← hdone]
        cases status <;> rfl
      rw [hqueued, ← hdone]
      cases hslotEnt : slot.queuedEntry with
      | false => rfl
      | true =>
        cases status with
        | success => exact hkeep hslotEnt
        | ioError | unsupported => exact absurd ⟨nofun, hkeep hslotEnt⟩ hfails
    rw [hent, set_getElem?_self hslot]
    exact .refl s

theorem completeChild_leaves (hcfg : s.config = config) (deviceIndex : Nat) (child : Nat)
    (status : HardwareStatus) (hslot : s.slots[index]? = some slot) (hok : SlotOk config slot) :
    Leaves (s.modifyDevice deviceIndex fun device =>
      { device with inFlight := device.inFlight - 1 })
      (s.completeChild deviceIndex index child status slot)
      (s.slots.set index (answeredSlot config child status slot)) := by
  subst hcfg
  have hlt := lt_length hslot
  unfold completeChild answeredSlot
  simp only
  generalize hdev : (fun device : DeviceSlot => { device with inFlight := device.inFlight - 1 }) = f
  generalize hslot1 : completedSlot s.config child status slot = slot1
  -- the slot, then its entry, then the end of the request
  have hset : Leaves (s.modifyDevice deviceIndex f) ({ s with
        slots := s.slots.set index slot1
        inFlightCommands := s.inFlightCommands - 1 }.modifyDevice deviceIndex f)
      (s.slots.set index slot1) := by
    have hleaves := set_leaves (s := s.modifyDevice deviceIndex f) hslot slot1 (by
      rw [← hslot1]
      cases status <;> exact fun h => h) (by
      rw [← hslot1]
      cases status <;> exact fun h => ⟨h, rfl, rfl⟩)
    exact ⟨rfl, rfl, rfl, .inl rfl, hleaves.idle, fun h => (hleaves.queued h).of_eq rfl rfl⟩
  generalize { s with
      slots := s.slots.set index slot1
      inFlightCommands := s.inFlightCommands - 1 }.modifyDevice deviceIndex f = s1
    at hset ⊢
  have hget1 : s1.slots[index]? = some slot1 := by
    rw [hset.slots]
    exact getElem?_set_self hlt
  have hleaves2 := hset.trans (dropEntry_leaves hok hslot1 hget1)
  rw [hset.slots, set_set] at hleaves2
  generalize (if status ≠ .success ∧ slot.pendingOutcome.isNone then s1.removeQueuedEntry index
    else s1) = s2 at hleaves2 ⊢
  generalize hslot2 : { slot1 with
    queuedEntry := slot1.queuedEntry && slot1.pendingOutcome.isNone } = slot2 at hleaves2 ⊢
  have hget2 : s2.slots[index]? = some slot2 := by
    rw [hleaves2.slots]
    exact getElem?_set_self hlt
  simp only [hget2]
  have hent : slot2.state = .terminal → slot2.queuedEntry = false := by
    rw [← hslot2, ← hslot1]
    intro hterm
    rw [Bool.eq_false_iff]
    intro hqueued
    have hslotEnt : slot.queuedEntry = true := by
      have hparts := Bool.and_eq_true_iff.mp hqueued
      cases status <;> exact hparts.1
    have hlive := (hok.entry.mp hslotEnt).1
    have hslotSt : slot.state = .terminal := by
      cases status <;> exact hterm
    exact not_terminal_of_isLive hlive hslotSt
  have hfinish := (hleaves2.trans (finish_leaves hget2 hent)).trans (updateShutdownState_leaves _)
  rw [(finish_leaves hget2 hent).slots, hleaves2.slots, set_set] at hfinish
  exact hfinish

theorem completeShutdownFlush_refines (hs : s.Sane) {token : DispatchToken}
    (hdev : s.devices[deviceIndex]? = some device) (hpres : device.present = true)
    (hname : token.deviceId = .fromParts deviceIndex device.generation)
    (hep : token.deviceEpoch = device.epoch) (hflush : token.shutdownFlush = true)
    (status : HardwareStatus) :
    Refines policy s
      (if (s.completeShutdownFlush deviceIndex device token status).1 = .accepted then
        [.completed token] else [])
      (s.completeShutdownFlush deviceIndex device token status).2 := by
  unfold completeShutdownFlush
  split
  all_goals try exact .refl hs
  rename_i serial hserial
  split
  · rename_i heq
    subst heq
    obtain ⟨flush, hdone, hfinal⟩ : ∃ flush, (flush = .done ∨ flush = .failed) ∧
        flush = if status = .success then ShutdownFlushState.done else .failed := by
      refine ⟨_, ?_, rfl⟩
      split
      · exact .inl rfl
      · exact .inr rfl
    rw [← hfinal]
    have hmove : Move s.config policy s.table [.completed token] { s.table with
        devices := s.devices.set deviceIndex { device with
          inFlight := device.inFlight - 1, shutdownFlush := flush } } :=
      .completeFlush hdev hpres hname hep hflush hserial hdone
    have hstep : Refines policy s [.completed token] { s with
        devices := s.devices.set deviceIndex { device with
          inFlight := device.inFlight - 1, shutdownFlush := flush }
        inFlightCommands := s.inFlightCommands - 1 } :=
      ⟨rfl, hs.queued.of_eq rfl rfl, .single hmove⟩
    exact hstep.trans (updateShutdownState_refines hstep.queued)
  · exact .refl hs

theorem complete_refines (hs : s.Sane) (token : DispatchToken) (status : HardwareStatus) :
    Refines policy s (if (s.complete token status).1 = .accepted then [.completed token] else [])
      (s.complete token status).2 := by
  unfold complete
  split
  · exact .refl hs
  rename_i deviceIndex device hfound
  obtain ⟨hidx, hdev⟩ := bind_map_mk_eq_some.mp hfound
  split
  · exact .refl hs
  rename_i hcurrent
  simp only [Bool.not_eq_true', not_or, Bool.not_eq_false, not_not] at hcurrent
  obtain ⟨hpres, hgen, hep⟩ := hcurrent
  have hname : token.deviceId = .fromParts deviceIndex device.generation := by
    rw [hgen]
    exact BlockDeviceId.eq_fromParts hidx
  split
  · rename_i hflush
    exact completeShutdownFlush_refines hs hdev hpres hname hep.symm hflush status
  rename_i hflush
  split
  · exact .refl hs
  rename_i index slot hreq
  obtain ⟨hslot, hid, hheld⟩ := exists_of_requestIndex_bind hreq
  split
  · exact .refl hs
  rename_i hslotDev
  split
  · exact .refl hs
  · exact .refl hs
  · exact .refl hs
  · rename_i serial notified hch
    split
    · exact .refl hs
    rename_i hserial
    obtain rfl := not_not.mp hserial
    have hok := hs.wf.slotOk slot (mem_of_getElem? hslot)
    have hleaves := completeChild_leaves rfl deviceIndex token.childIndex status hslot hok
    refine ⟨hleaves.config, hleaves.queued (hs.queued.of_eq rfl rfl),
      Star.quiet (.single ?_) hleaves.tunes⟩
    have hdevs : (s.modifyDevice deviceIndex fun device =>
        { device with inFlight := device.inFlight - 1 }).table =
        { s.table with
          devices := s.devices.set deviceIndex
            { device with inFlight := device.inFlight - 1 } } := by
      unfold modifyDevice table
      rw [modify_eq_set hdev]
    rw [hdevs]
    exact .complete hslot hheld hid hdev hpres hname (not_not.mp hslotDev)
      hep.symm (Bool.eq_false_iff.mpr hflush) hch

theorem validateTransfer_eq_ok {request : RequestSpec} {childCount : Nat}
    (hxfer : request.operation.transfersData = true)
    (h : s.validateTransfer request device = .ok childCount) :
    Shaped s.config request childCount ∧ 0 < childCount ∧ Fits device.config.dma request := by
  unfold validateTransfer at h
  split at h
  · cases h
  rename_i buffer hbuf
  split at h
  · cases h
  rename_i hlen
  split at h
  · cases h
  rename_i hlarge
  split at h
  · cases h
  rename_i hvalid
  split at h
  · cases h
  rename_i sectorEnd hend
  obtain ⟨rfl, hword⟩ := checkedAdd_some hend
  split at h
  · cases h
  simp only at h
  split at h
  · cases h
  rename_i hchs
  obtain rfl := Except.ok.inj h
  simp only [not_or, not_not, Nat.not_lt] at hlen hlarge hchs
  refine ⟨⟨fun _ => ⟨buffer, hbuf, hlen.2, hlarge, hword, rfl⟩, ?_, hchs.2⟩,
    Nat.pos_of_ne_zero hchs.1, fun _ other hother => ?_⟩
  · rw [hxfer]
    exact nofun
  · cases hbuf.symm.trans hother
    exact hvalid

theorem validateSubmission_eq_ok {request : RequestSpec} {childCount : Nat}
    (h : s.validateSubmission nowNs request = .ok (deviceIndex, childCount)) :
    ∃ device, s.devices[deviceIndex]? = some device ∧ device.present = true ∧
      request.device = .fromParts deviceIndex device.generation ∧
      Shaped s.config request childCount ∧ 0 < childCount ∧ s.shutdown = .running ∧
        Fits device.config.dma request := by
  unfold validateSubmission at h
  split at h
  · cases h
  rename_i hrun
  split at h
  · cases h
  rename_i index device hfound
  obtain ⟨hidx, hdev⟩ := bind_map_mk_eq_some.mp hfound
  split at h
  · cases h
  rename_i hgen
  split at h
  · cases h
  rename_i hpres
  have hname : request.device = .fromParts index device.generation := by
    rw [not_not.mp hgen]
    exact BlockDeviceId.eq_fromParts hidx
  simp only [Bool.not_eq_true', Bool.not_eq_false] at hpres
  split at h
  · cases h
  split at h
  · rename_i hxfer
    obtain ⟨children, hvalid, heq⟩ : ∃ children, s.validateTransfer request device = .ok children ∧
          (index, children) = (deviceIndex, childCount) := by
      cases hvalid : s.validateTransfer request device with
      | error error =>
        rw [hvalid] at h
        cases h
      | ok children =>
        rw [hvalid] at h
        exact ⟨children, rfl, Except.ok.inj h⟩
    obtain ⟨rfl, rfl⟩ := Prod.mk.inj heq
    obtain ⟨hshaped, hpos, hfits⟩ := validateTransfer_eq_ok hxfer hvalid
    exact ⟨device, hdev, hpres, hname, hshaped, hpos, not_not.mp hrun, hfits⟩
  · rename_i hxfer
    split at h
    · cases h
    rename_i hempty
    obtain ⟨rfl, rfl⟩ := Prod.mk.inj (Except.ok.inj h)
    simp only [not_or, Bool.not_eq_true, isSome_eq_false_iff,
      isNone_iff_eq_none, not_not] at hempty
    refine ⟨device, hdev, hpres, hname, ⟨fun htrue => absurd htrue hxfer,
      fun _ => ⟨hempty.1, hempty.2, rfl⟩, by decide⟩, Nat.one_pos, not_not.mp hrun,
      fun htrue => absurd htrue hxfer⟩

theorem enqueue_eq (hslot : s.slots[index]? = some slot) : s.enqueue index nowNs = { s with
      queues := s.queues.set slot.priority (s.queues.get slot.priority ++
        [⟨.fromParts index slot.generation, nowNs⟩])
      slots := s.slots.set index { slot with queuedEntry := true } } := by
  unfold enqueue
  simp only [hslot]

theorem enqueue_queued (hsize : s.slots.length < u32Max) (hslot : s.slots[index]? = some slot)
    (hlisted : ∀ i other, i ≠ index → s.slots[i]? = some other → other.queuedEntry = true →
      ∃ entry ∈ s.queues.get other.priority, entry.id = .fromParts i other.generation) :
    (s.enqueue index nowNs).Queued := by
  rw [enqueue_eq hslot]
  refine ⟨by rw [length_set]; exact hsize, fun i other hother hent => ?_⟩
  rcases (getElem?_set_iff hslot _ i other).mp hother with ⟨rfl, rfl⟩ | ⟨hne, hother⟩
  · refine ⟨⟨.fromParts i slot.generation, nowNs⟩, ?_, rfl⟩
    rw [PerPriority.get_set_self]
    exact mem_append_right _ mem_cons_self
  · obtain ⟨entry, hmem, hid⟩ := hlisted i other hne hother hent
    refine ⟨entry, ?_, hid⟩
    by_cases hsame : other.priority = slot.priority
    · rw [hsame] at hmem ⊢
      rw [PerPriority.get_set_self]
      exact mem_append_left _ hmem
    · rw [PerPriority.get_set_of_ne _ _ hsame]
      exact hmem

def submitEvents (request : RequestSpec) : Except SubmitFailure BlockRequestId → List Event
  | .ok id => [.submitted id request]
  | .error failure => [.rejected failure]

theorem submit_refines (hs : s.Sane) (nowNs : Nat) (request : RequestSpec) :
    Refines policy s (submitEvents request (s.submit nowNs request).1)
    (s.submit nowNs request).2 := by
  have hreject : ∀ failure, Refines policy s [.rejected failure] s := fun failure =>
    ⟨rfl, hs.queued, .single (.reject failure)⟩
  unfold submit
  cases hvalid : s.validateSubmission nowNs request with
  | error error => exact hreject _
  | ok found =>
    obtain ⟨deviceIndex, childCount⟩ := found
    obtain ⟨device, hdev, hpres, hname, hshaped, hpos, hrun, hfits⟩ :=
      validateSubmission_eq_ok hvalid
    cases hfree : s.slots.findIdx? (·.state = .free) with
    | none => exact hreject _
    | some index =>
      obtain ⟨slot, hslot, hst⟩ := exists_of_findIdx? hfree
      have hst : slot.state = .free := of_decide_eq_true hst
      simp only [hslot, hdev]
      cases hseq : checkedAdd device.nextSequence 1 with
      | none => exact hreject _
      | some nextSequence =>
        obtain ⟨rfl, -⟩ := checkedAdd_some hseq
        simp only
        split
        · exact hreject _
        rename_i nextOrderingEpoch hordg
        have hordg : nextOrderingEpoch =
            device.nextOrderingEpoch + if request.operation.isFence then 1 else 0 := by
          split at hordg
          · rename_i hfence
            rw [if_pos hfence]
            exact (checkedAdd_some hordg).1
          · rename_i hdata
            rw [if_neg hdata]
            exact (some.inj hordg).symm
        subst hordg
        generalize hdev' : { device with
          nextSequence := _, nextOrderingEpoch := _ } = device'
        generalize hslot' : acceptedSlot request slot.generation device.nextSequence
          device.nextOrderingEpoch childCount = slot'
        have hget : { s with
            devices := s.devices.set deviceIndex device'
            slots := s.slots.set index slot' }.slots[index]? =
              some slot' := getElem?_set_self (lt_length hslot)
        refine ⟨by rw [enqueue_eq hget], enqueue_queued ?_ hget fun i other hne hother => ?_, ?_⟩
        · rw [length_set]
          exact hs.queued.size
        · exact hs.queued.listed i other ((getElem?_set_ne (Ne.symm hne)).symm.trans hother)
        · rw [enqueue_eq hget]
          have hmove : Move s.config policy s.table
              [.submitted (.fromParts index slot.generation) request] _ :=
            .submit hslot hst hdev hpres hname hshaped hpos hrun hfits
          rw [hdev', hslot'] at hmove
          refine .single ?_
          rw [set_set]
          exact hmove

/-! ## Devices -/

def registerEvents : Except DeviceRegisterError BlockDeviceId → List Event
  | .ok id => [.registered id]
  | .error _ => []

/-- While the queue quiesces only devices that can flush are registered. -/
def RegistersFlushing (config : BlockDeviceConfig) (s : AsyncBlockQueue) : Prop :=
  s.shutdown = .quiescing → config.supportsFlush = true

theorem registerDevice_refines (hs : s.Sane) (config : BlockDeviceConfig)
    (hflushes : policy.flushes = true → s.RegistersFlushing config)
    (hdrains : policy.drains = true → s.shutdown ≠ .drained) :
    Refines policy s (registerEvents (s.registerDevice config).1) (s.registerDevice config).2 := by
  unfold registerDevice
  split
  · exact .refl hs
  rename_i hvalid
  cases hfree : s.devices.findIdx? (!·.present) with
  | none => exact .refl hs
  | some index =>
    obtain ⟨device, hdev, habsent⟩ := exists_of_findIdx? hfree
    have habsent : device.present = false := Bool.not_eq_true' _ ▸ habsent
    simp only [hdev]
    split
    · exact .refl hs
    rename_i generation hgen
    have hdepth : 0 < config.queueDepth := by
      unfold BlockDeviceConfig.isValid at hvalid
      simp only [Bool.not_eq_true', Bool.not_eq_false, Bool.and_eq_true,
        decide_eq_true_eq] at hvalid
      exact Nat.pos_of_ne_zero hvalid.1.2
    have hnew : device.everRegistered = false ∧ generation = device.generation ∨
        generation = device.generation + 1 := by
      split at hgen
      · exact .inr (checkedSuccU32_some hgen).1
      · rename_i hnever
        exact .inl ⟨Bool.eq_false_iff.mpr hnever, (some.inj hgen).symm⟩
    generalize hmark :
      (if s.shutdown = .quiescing then ShutdownFlushState.pending else .none) = flush
    have hflush : s.shutdown ≠ .quiescing ∧ flush = .none ∨
        s.shutdown = .quiescing ∧ flush = .pending := by
      rw [← hmark]
      by_cases hqsc : s.shutdown = .quiescing
      · exact .inr ⟨hqsc, if_pos hqsc⟩
      · exact .inl ⟨hqsc, if_neg hqsc⟩
    obtain ⟨device', hdev'⟩ : ∃ device' : DeviceSlot, device' = ⟨generation, 1, true, true,
      config, 0, 1, 1, 1, .all 0, .latency, 0, flush⟩ := ⟨_, rfl⟩
    have hmove : Move s.config policy s.table [.registered (.fromParts index device'.generation)]
        { s.table with devices := s.devices.set index device' } := by
      subst hdev'
      exact .register hdev habsent hnew rfl rfl rfl rfl rfl rfl hdepth hflush hflushes hdrains
    subst hdev'
    exact ⟨rfl, hs.queued.of_eq rfl rfl, .single hmove⟩

/-- The device has lost its commands. -/
structure Stopped (device device' : DeviceSlot) : Prop where
  generation : device'.generation = device.generation
  everRegistered : device'.everRegistered = device.everRegistered
  config : device'.config = device.config
  inFlight : device'.inFlight = 0
  nextSequence : device'.nextSequence = device.nextSequence
  nextOrderingEpoch : device'.nextOrderingEpoch = device.nextOrderingEpoch
  dispatches : device'.nonBackgroundDispatches = device.nonBackgroundDispatches

section

variable (device' : DeviceSlot) (hout : out ≠ .success)
    (hdev : s.devices[deviceIndex]? = some device)
  (hpres : device.present = true) (hbnd : device'.epoch ≤ u32Max) (hstop : Stopped device device')
include hout hdev hpres hbnd hstop

/-- A device loses its commands and its requests, whatever becomes of the shutdown. -/
theorem advance_moves (shutdown : ShutdownState) (hep : device'.epoch = device.epoch + 1 ∨
      policy.epochs = false ∧ device'.epoch = device.epoch)
    (hflush : device'.shutdownFlush = .failed ∨
      device'.shutdownFlush = .none ∧ shutdown ≠ .quiescing ∧
        (policy.drains = true → shutdown ≠ .drained)) :
    Moves s.config policy { s.table with shutdown := shutdown }
      (if device'.epoch = device.epoch then []
        else [.advanced (.fromParts deviceIndex device.generation)])
      { (({ s with devices := s.devices.set deviceIndex device' } :
          AsyncBlockQueue).failDeviceRequests (.fromParts deviceIndex device.generation)
            out).table with shutdown := shutdown } := by
  have hleaves := failDeviceRequests_leaves (.fromParts deviceIndex device.generation) out
    { s with devices := s.devices.set deviceIndex device' }
  simp only [table_slots, table_devices, hleaves.slots, hleaves.devices]
  exact .single (.advance out hout hdev hpres hep hbnd hstop.generation hstop.everRegistered
    hstop.config hstop.inFlight hstop.nextSequence hstop.nextOrderingEpoch hstop.dispatches hflush)

theorem advance_refines (hs : s.Sane) (hep : device'.epoch = device.epoch + 1)
    (hflush : device'.shutdownFlush = .failed ∨
      device'.shutdownFlush = .none ∧ s.shutdown ≠ .quiescing ∧
        (policy.drains = true → s.shutdown ≠ .drained)) :
    Refines policy s [.advanced (.fromParts deviceIndex device.generation)]
      (({ s with devices := s.devices.set deviceIndex device' } :
        AsyncBlockQueue).failDeviceRequests
        (.fromParts deviceIndex device.generation) out) := by
  have hleaves := failDeviceRequests_leaves (.fromParts deviceIndex device.generation) out
    { s with devices := s.devices.set deviceIndex device' }
  have hmoves : Moves s.config policy s.table _ _ := advance_moves device' hout hdev
    hpres hbnd hstop s.shutdown (.inl hep) hflush
  rw [if_neg (by omega)] at hmoves
  refine ⟨hleaves.config, hleaves.queued (hs.queued.of_eq rfl rfl), hmoves.quiet ?_⟩
  simp only [table_slots, table_devices, hleaves.slots, hleaves.devices]
  exact hleaves.tunes

end

theorem recountInFlight_refines (hqueued : s.Queued) : Refines policy s [] s.recountInFlight :=
  ⟨rfl, hqueued.of_eq rfl rfl, .refl _⟩

theorem Refines.recounted {e : Event} (h : Refines policy s [e] s') :
    Refines policy s [e] s'.recountInFlight.updateShutdownState := by
  have hrecount := h.trans (recountInFlight_refines h.queued)
  exact hrecount.trans (updateShutdownState_refines hrecount.queued)

def advanceEvents (device : BlockDeviceId) : Except DeviceLifecycleError Unit → List Event
  | .ok () => [.advanced device]
  | .error _ => []

theorem exists_of_deviceIndex_bind {id : BlockDeviceId}
    (h : ((s.deviceIndex id).bind fun index => (s.devices[index]?).map (index, ·)) =
      some (deviceIndex, device)) : s.devices[deviceIndex]? = some device ∧ device.present = true ∧
      id = .fromParts deviceIndex device.generation := by
  obtain ⟨hidx, hdev⟩ := bind_map_mk_eq_some.mp h
  obtain ⟨device1, hpres⟩ := deviceIndex_eq_some hidx
  cases hdev.symm.trans hpres.1
  exact hpres

theorem resetDevice_refines (hs : s.Sane) (device : BlockDeviceId)
    (hdrains : policy.drains = true → s.shutdown ≠ .drained) :
    Refines policy s (advanceEvents device (s.resetDevice device).1) (s.resetDevice device).2 := by
  unfold resetDevice
  split
  · exact .refl hs
  rename_i deviceIndex dslot hfound
  obtain ⟨hdev, hpres, rfl⟩ := exists_of_deviceIndex_bind hfound
  split
  · exact .refl hs
  rename_i epoch hep
  obtain ⟨rfl, hbnd⟩ := checkedSuccU32_some hep
  refine Refines.recounted ?_
  refine advance_refines _ nofun hdev hpres hbnd ⟨rfl, rfl, rfl, rfl, rfl, rfl, rfl⟩ hs rfl ?_
  by_cases hqsc : s.shutdown = .quiescing
  · exact .inl (if_pos hqsc)
  · exact .inr ⟨if_neg hqsc, hqsc, hdrains⟩

theorem removeDevice_refines (hs : s.Sane) (device : BlockDeviceId) :
    Refines policy s (advanceEvents device (s.removeDevice device).1)
    (s.removeDevice device).2 := by
  unfold removeDevice
  split
  · exact .refl hs
  rename_i deviceIndex dslot hfound
  obtain ⟨hdev, hpres, rfl⟩ := exists_of_deviceIndex_bind hfound
  split
  · exact .refl hs
  rename_i epoch hep
  obtain ⟨rfl, hbnd⟩ := checkedSuccU32_some hep
  refine Refines.recounted ?_
  exact advance_refines _ nofun hdev hpres hbnd ⟨rfl, rfl, rfl, rfl, rfl, rfl, rfl⟩ hs rfl
    (.inl rfl)

theorem beginShutdown_refines (hs : s.Sane) : Refines policy s [] s.beginShutdown := by
  unfold beginShutdown
  split
  · exact .refl hs
  rename_i hrun
  generalize hdevs : s.devices.map _ = devices
  have hmove : Move s.config policy s.table []
      { s.table with devices := devices, shutdown := .quiescing } := by
    refine .begin (not_not.mp hrun) ?_
    rw [← hdevs]
    refine forall₂_map_right_iff.mpr (forall₂_same.mpr fun device _ => ?_)
    split
    · rename_i hpres
      refine .inr ⟨_, rfl, hpres, ?_⟩
      split
      · exact .inl ⟨rfl, by assumption⟩
      · exact .inr rfl
    · exact .inl ⟨rfl, Bool.eq_false_iff.mpr (by assumption)⟩
  have hstep : Refines policy s [] { s with shutdown := .quiescing, devices := devices } :=
    ⟨rfl, hs.queued.of_eq rfl rfl, .single hmove⟩
  exact hstep.trans (updateShutdownState_refines hstep.queued)

/-- The devices whose epoch a forced shutdown moves. -/
def forcedEvents (s : AsyncBlockQueue) (deviceIndex : Nat) : List Event :=
  match s.devices[deviceIndex]? with
  | none => []
  | some device =>
    if device.present ∧ device.epoch < u32Max then
      [.advanced (.fromParts deviceIndex device.generation)]
    else []

/-- A forced shutdown changes the epoch of every device. -/
def ForceMovesEpochs (s : AsyncBlockQueue) : Prop :=
  ∀ device ∈ s.devices, device.present = true → device.epoch < u32Max

theorem forceDevice_moves (shutdown : ShutdownState) (deviceIndex : Nat)
    (hok : ∀ device, s.devices[deviceIndex]? = some device → DeviceOk device)
    (hpol : policy.epochs = true → ∀ device, s.devices[deviceIndex]? = some device →
      device.present = true → device.epoch < u32Max) :
    Moves s.config policy { s.table with shutdown := shutdown } (s.forcedEvents deviceIndex)
      { (s.forceDevice deviceIndex).table with shutdown := shutdown } := by
  unfold forceDevice forcedEvents
  cases hdev : s.devices[deviceIndex]? with
  | none => exact .refl _
  | some device =>
    simp only
    by_cases hpres : device.present = true
    · rw [if_pos hpres]
      have hle := (hok device hdev).epoch
      generalize hdev' : { device with
        epoch := max (min (device.epoch + 1) u32Max) 1, inFlight := _,
          shutdownFlush := _ } = device'
      have hep' : device'.epoch = max (min (device.epoch + 1) u32Max) 1 := by rw [← hdev']
      have hbnd : device'.epoch ≤ u32Max := by
        rw [hep']
        unfold u32Max
        omega
      have hep : device'.epoch = device.epoch + 1 ∨
          policy.epochs = false ∧ device'.epoch = device.epoch := by
        rcases Nat.lt_or_ge device.epoch u32Max with hlt | hge
        · exact .inl (by omega)
        · refine .inr ⟨?_, by unfold u32Max at hle hge hep'; omega⟩
          rw [Bool.eq_false_iff]
          intro hepochs'
          exact Nat.not_lt.mpr hge (hpol hepochs' device hdev hpres)
      have hevs : (if device.present = true ∧ device.epoch < u32Max then
          [Event.advanced (.fromParts deviceIndex device.generation)] else []) =
          if device'.epoch = device.epoch then []
            else [.advanced (.fromParts deviceIndex device.generation)] := by
        rcases Nat.lt_or_ge device.epoch u32Max with hlt | hge
        · rw [if_pos ⟨hpres, hlt⟩, if_neg (by omega)]
        · rw [if_neg (fun h => Nat.not_lt.mpr hge h.2), if_pos]
          omega
      rw [hevs]
      subst hdev'
      exact advance_moves _ (by nofun) hdev hpres hbnd ⟨rfl, rfl, rfl, rfl, rfl, rfl, rfl⟩
        shutdown hep
        (.inl rfl)
    · rw [if_neg hpres, if_neg (fun h => hpres h.1)]
      exact .refl _

/-- The device is stopped, the others are as they were, and nobody owes a new flush. -/
theorem forceDevice_cases (s : AsyncBlockQueue) (deviceIndex : Nat) :
    s.forceDevice deviceIndex = s ∧
        (∀ device, s.devices[deviceIndex]? = some device → device.present = false) ∨
      ∃ device' out, device'.shutdownFlush = .failed ∧ deviceIndex < s.devices.length ∧
        Leaves { s with devices := s.devices.set deviceIndex device' } (s.forceDevice deviceIndex)
          (s.slots.map fun slot =>
            if slot.device = .fromParts deviceIndex device'.generation ∧ slot.isLive then
              slot.fail out else slot) := by
  unfold forceDevice
  cases hdev : s.devices[deviceIndex]? with
  | none => exact .inl ⟨rfl, nofun⟩
  | some device =>
    simp only
    by_cases hpres : device.present = true
    · rw [if_pos hpres]
      exact .inr ⟨_, _, rfl, (lt_length hdev), failDeviceRequests_leaves _ _ _⟩
    · rw [if_neg hpres]
      refine .inl ⟨rfl, fun device1 heq => ?_⟩
      rw [← some.inj heq]
      exact Bool.eq_false_iff.mpr hpres

/-- The first devices were stopped on the way to `s'`. -/
structure Forced (policy : Policy) (s : AsyncBlockQueue) (count : Nat) (s' : AsyncBlockQueue) :
    Prop where
  config : s'.config = s.config
  queued : s'.Queued
  moves : Moves s.config policy s.table ((range count).flatMap s.forcedEvents)
    { s'.table with shutdown := s.shutdown }
  length : s'.devices.length = s.devices.length
  rest : ∀ i, count ≤ i → s'.devices[i]? = s.devices[i]?
  failed : ∀ (i : Nat) (device : DeviceSlot), i < count → s'.devices[i]? = some device →
    device.present = true → device.shutdownFlush = .failed
  dead : ∀ slot ∈ s'.slots, slot.isLive = true → ∀ (i : Nat) (device : DeviceSlot), i < count →
    s'.devices[i]? = some device → device.present = true →
      slot.device ≠ .fromParts i device.generation
  shutdown : s'.shutdown = .quiescing ∨ s'.shutdown = .drained ∧ s'.table.Idle

section

variable (hs : s.Sane) (hpol : policy.epochs = true → s.ForceMovesEpochs)
include hs hpol

theorem Forced.next {count : Nat} (h : Forced policy s count s') :
    Forced policy s (count + 1) (s'.forceDevice count) := by
  have hsame := h.rest count (Nat.le_refl _)
  have hevs : s.forcedEvents count = s'.forcedEvents count := by
    unfold forcedEvents
    rw [hsame]
  have hmoves : Moves s'.config policy _ _ _ := forceDevice_moves s.shutdown count
    (fun device hdev => hs.wf.deviceOk device (mem_of_getElem? (hsame ▸ hdev)))
    (fun hepochs device hdev hpres =>
      hpol hepochs device (mem_of_getElem? (hsame ▸ hdev)) hpres)
  rw [← hevs, h.config] at hmoves
  have hmoves := h.moves.trans hmoves
  have hrange : (range (count + 1)).flatMap s.forcedEvents =
      (range count).flatMap s.forcedEvents ++ s.forcedEvents count := by
    rw [range_succ, flatMap_append, flatMap_singleton]
  rw [← hrange] at hmoves
  rcases forceDevice_cases s' count with ⟨heq, habsent⟩ | ⟨device', out, hfailed, hlt, hleaves⟩
  · rw [heq] at hmoves ⊢
    have hbefore i device (hi : i < count + 1) (hdev : s'.devices[i]? = some device)
        (hpres : device.present = true) : i < count := by
      rcases Nat.lt_succ_iff_lt_or_eq.mp hi with hlt | rfl
      · exact hlt
      · rw [habsent device hdev] at hpres
        cases hpres
    refine ⟨h.config, h.queued, hmoves, h.length, fun i hi => h.rest i (by omega), ?_,
      ?_, h.shutdown⟩
    · intro i device hi hdev hpres
      exact h.failed i device (hbefore i device hi hdev hpres) hdev hpres
    · intro slot hmem hlive i device hi hdev hpres
      exact h.dead slot hmem hlive i device (hbefore i device hi hdev hpres) hdev hpres
  · have hidle : s'.table.Idle → (s'.forceDevice count).table.Idle := by
      intro hidle
      refine hleaves.idle ⟨hidle.requests, forall_mem_set hidle.flushes ?_⟩
      unfold DeviceSlot.owesFlush
      rw [hfailed, Bool.and_false]
    refine ⟨hleaves.config.trans h.config, hleaves.queued (h.queued.of_eq rfl rfl), hmoves, ?_, ?_,
      ?_, ?_, ?_⟩
    · rw [hleaves.devices, length_set]
      exact h.length
    · intro i hi
      rw [hleaves.devices, getElem?_set_ne (by omega)]
      exact h.rest i (by omega)
    · intro i device hi hdev hpres
      rw [hleaves.devices] at hdev
      rcases Nat.lt_succ_iff_lt_or_eq.mp hi with hlt | rfl
      · rw [getElem?_set_ne (by omega)] at hdev
        exact h.failed i device hlt hdev hpres
      · rw [getElem?_set_self hlt] at hdev
        rw [← some.inj hdev]
        exact hfailed
    · intro slot' hmem hlive i device hi hdev hpres
      rw [hleaves.slots] at hmem
      rw [hleaves.devices] at hdev
      obtain ⟨slot, hslot, rfl⟩ := mem_map.mp hmem
      split at hlive
      · cases hlive
      rename_i hkept
      rw [if_neg hkept]
      rcases Nat.lt_succ_iff_lt_or_eq.mp hi with hlt | rfl
      · rw [getElem?_set_ne (by omega)] at hdev
        exact h.dead slot hslot hlive i device hlt hdev hpres
      · rw [getElem?_set_self hlt] at hdev
        rw [← some.inj hdev]
        exact fun hname => hkept ⟨hname, hlive⟩
    · rcases hleaves.shutdown with hsame | ⟨-, hdrained, hidle'⟩
      · rw [hsame]
        exact h.shutdown.imp_right fun hdrained => ⟨hdrained.1, hidle hdrained.2⟩
      · exact .inr ⟨hdrained, hidle'⟩

theorem forced_foldl (count : Nat) :
    Forced policy s count ((range count).foldl forceDevice { s with shutdown := .quiescing }) := by
  induction count with
  | zero =>
    exact ⟨rfl, hs.queued.of_eq rfl rfl, .refl _, rfl, fun _ _ => rfl,
      fun _ _ hlt => absurd hlt (Nat.not_lt_zero _),
      fun _ _ _ _ _ hlt => absurd hlt (Nat.not_lt_zero _), .inl rfl⟩
  | succ count ih =>
    rw [range_succ, foldl_append]
    exact ih.next hs hpol

theorem forceShutdown_refines :
    Refines policy s ((range s.devices.length).flatMap s.forcedEvents) s.forceShutdown := by
  have hforced := forced_foldl hs hpol s.devices.length
  unfold forceShutdown
  generalize (range s.devices.length).foldl forceDevice { s with shutdown := .quiescing } = s1
    at hforced ⊢
  -- with every device stopped the q quiesces, and may at once be drained
  have hforce : Move s.config policy { s1.table with shutdown := s.shutdown } []
      { s1.table with shutdown := .quiescing } := by
    refine .force fun device hmem => ?_
    obtain ⟨i, hlt, hget⟩ := getElem_of_mem hmem
    exact hforced.failed i device (hforced.length ▸ hlt) (List.getElem?_eq_some_iff.mpr ⟨hlt, hget⟩)
  have htune : Move s.config policy { s1.table with shutdown := .quiescing } [] s1.table := by
    have hmove : ∀ shutdown, shutdown = .quiescing ∨ shutdown = .drained ∧ s1.table.Idle →
        Move s.config policy { s1.table with shutdown := .quiescing } []
          { s1.table with shutdown := shutdown } := fun shutdown h =>
      .tune (sameDevice_refl _) (h.imp_right fun hdrained =>
        ⟨rfl, hdrained.1, ⟨hdrained.2.requests, hdrained.2.flushes⟩⟩)
    exact hmove s1.shutdown hforced.shutdown
  have hall : Refines policy s ((range s.devices.length).flatMap s.forcedEvents) s1 :=
    ⟨hforced.config, hforced.queued, (hforced.moves.quiet hforce).quiet htune⟩
  have hrecount := hall.trans (recountInFlight_refines hall.queued)
  have hfinal := hrecount.trans (updateShutdownState_refines hrecount.queued)
  rw [append_nil, append_nil] at hfinal
  exact hfinal

end

theorem forceShutdown_stops (hs : s.Sane) : s.forceShutdown.shutdown ≠ .running ∧
    ∀ slot ∈ s.forceShutdown.slots, slot.isLive = false := by
  have hforced : Forced .any s _ _ :=
    forced_foldl hs (fun hepochs => absurd hepochs Bool.false_ne_true) s.devices.length
  unfold forceShutdown
  generalize (range s.devices.length).foldl forceDevice { s with shutdown := .quiescing } = s1
    at hforced ⊢
  have hleaves := updateShutdownState_leaves s1.recountInFlight
  refine ⟨?_, fun slot hmem => Bool.eq_false_iff.mpr fun hlive => ?_⟩
  · have hshutdown : s1.recountInFlight.shutdown ≠ .running := by
      intro hrun
      rcases hforced.shutdown with hqsc | ⟨hdrained, -⟩
      · exact nomatch hqsc.symm.trans hrun
      · exact nomatch hdrained.symm.trans hrun
    rcases hleaves.shutdown with hsame | ⟨-, hdrained, -⟩
    · rw [hsame]
      exact hshutdown
    · rw [hdrained]
      exact nofun
  rw [hleaves.slots] at hmem
  have hwf := hforced.moves.invariant hs.wf
    fun _ _ _ _ hwf hmove => hmove.wf hwf
  obtain ⟨index, device, hdev, hpres, hname⟩ := hwf.attached slot hmem hlive
  have hlt : index < s.devices.length := hforced.length ▸ (lt_length hdev)
  exact hforced.dead slot hmem hlive index device hlt hdev hpres hname

end Ginkgo.Kernel.AsyncBlock.AsyncBlockQueue
