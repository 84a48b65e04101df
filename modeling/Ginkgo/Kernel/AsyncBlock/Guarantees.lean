import Ginkgo.Kernel.AsyncBlock.Runs

/-!
# What the block queue guarantees

Fences are not crossed, cancellation names commands that are out, and a transfer is split
exactly, in every run that keeps to what each of these needs.
-/

namespace Ginkgo.Kernel.AsyncBlock

open Ginkgo.Lib List Option RequestSlot

section

variable {config : QueueConfig} {policy : Policy} {t t' : Table} {events : List Event}

theorem Move.dispatched_cases {command : DispatchCommand}
    (hmove : Move config policy t [.dispatched command] t')
    (hflush : command.token.shutdownFlush = false) :
    ∃ index slot deviceIndex device offset, t.slots[index]? = some slot ∧
      t.Present slot.device deviceIndex device ∧ t.Dispatchable slot ∧
      command.token.requestId = .fromParts index slot.generation ∧
      command.token.deviceId = slot.device ∧ command.priority = slot.priority ∧
      command.token.childIndex = slot.nextChild ∧
      AsyncBlockQueue.childSlice config slot slot.nextChild =
        some (offset, command.byteLen, command.segments) ∧
      ∃ device', t'.Present slot.device deviceIndex device' ∧ SameDevice
        (AsyncBlockQueue.dispatchedDevice device slot.priority) device' := by
  generalize hevs : [Event.dispatched command] = events at hmove
  cases hmove with
  | dispatch hslot hdev hpres hname hdispatchable _ hslice _ hsame =>
    obtain rfl := Event.dispatched.inj (head_eq_of_cons_eq hevs)
    refine ⟨_, _, _, _, _, hslot, ⟨hdev, hpres, hname⟩, hdispatchable, rfl, rfl, rfl,
      rfl, hslice, _,
      ⟨getElem?_set_self (lt_length hdev), ?_, ?_⟩, hsame⟩
    · exact hsame.present.trans hpres
    · rw [hsame.generation]
      exact hname
  | flush _ _ _ _ _ _ _ _ _ _ hcmd =>
    obtain rfl := Event.dispatched.inj (head_eq_of_cons_eq hevs)
    exact nomatch hflush.symm.trans hcmd
  | advance => split at hevs <;> cases hevs
  | _ => cases hevs

theorem Moves.liveAs (hmoves : Moves config policy t events t') (hwf : t.Wf config)
    (hnone : submissions events = []) {id : BlockRequestId} (h : t'.LiveAs id) : t.LiveAs id := by
  induction hmoves with
  | refl => exact h
  | @tail t1 t2 past heard hmoves hmove ih =>
    rw [submissions_append, append_eq_nil_iff] at hnone
    refine ih hnone.1 ?_
    obtain ⟨i, slot', hget, rfl, hlive⟩ := h
    rcases hmove.live_cases (Moves.wf hmoves hwf) hget hlive with
      ⟨slot, hslot, hslotLive, hgen, -⟩ | ⟨-, rfl, -⟩
    · exact ⟨i, slot, hslot, by rw [hgen], hslotLive⟩
    · cases hnone.2

end

namespace AsyncBlockQueue

variable {policy : Policy} {s s' : AsyncBlockQueue} {history : List Event} {id : BlockRequestId}
  {device : BlockDeviceId} {nowNs : Nat}

theorem pollRequest_of_not_live (h : ¬s.table.LiveAs id) :
    s.pollRequest id = .unknown ∨ ∃ outcome, s.pollRequest id = .complete outcome := by
  unfold pollRequest
  split
  · exact .inl rfl
  rename_i slot hfound
  obtain ⟨index, hidx, hslot⟩ := bind_eq_some_iff.mp hfound
  obtain ⟨slot', hslot', rfl, -⟩ := requestIndex_eq_some hidx
  cases hslot.symm.trans hslot'
  have hdead : ¬slot.isLive = true := fun hlive => h ⟨index, slot, hslot, rfl, hlive⟩
  unfold isLive at hdead
  cases hst : slot.state with
  | queued => simp [hst] at hdead
  | active => simp [hst] at hdead
  | terminal => exact .inr ⟨slot.terminalOutcome, rfl⟩
  | free => exact .inl rfl
  | retired => exact .inl rfl

/-- What `dispatchOne` returns was dispatched by one move, with the past as it was. -/
theorem Traced.dispatched (hs : s.Traced policy history)
    (hallowed : Allowed policy s (.dispatchOne device nowNs)) {command : DispatchCommand}
    (hcmd : (s.dispatchOne device nowNs).1 = some command) :
    ∃ t t', Moves s.config policy s.table [] t ∧ Tracked s.config policy t history ∧
      Move s.config policy t [.dispatched command] t' ∧
      Moves s.config policy t' [] (s.dispatchOne device nowNs).2.table := by
  have hrefines := exec_refines hs.sane hallowed
  have hmoves : Moves s.config policy s.table
      ((s.dispatchOne device nowNs).1.toList.map .dispatched)
      (s.dispatchOne device nowNs).2.table :=
    hrefines.moves
  rw [hcmd] at hmoves
  obtain ⟨t, t', hbef, hmove, hafter⟩ := hmoves.exists_of_singleton
    fun _ _ _ hmove => hmove.length_le_one
  refine ⟨t, t', hbef, ?_, hmove, hafter⟩
  have htracked := Moves.tracked hbef hs.sane.valid hs.tracked
  rwa [append_nil] at htracked

/-- A command of a fence or of a request behind it goes out only when every request before the
fence has ended, unless a fence was aborted before its time. -/
theorem dispatchOne_keeps_fences (hpolicy : policy.fences = true) (hrun : Run policy history s)
    {device : BlockDeviceId} {nowNs : Nat}
    (hallowed : Allowed policy s (.dispatchOne device nowNs)) {command : DispatchCommand}
    (hcommand : (s.dispatchOne device nowNs).1 = some command)
    (hrequest : command.token.shutdownFlush = false)
    {before after : List (BlockRequestId × RequestSpec)} {fence : BlockRequestId × RequestSpec}
    (hsubmitted : submissionsTo device history = before ++ fence :: after)
    (hfence : fence.2.operation.isFence = true)
    (hbehind : command.token.requestId ∈ (fence :: after).map Prod.fst) :
    ∀ earlier ∈ before, (s.dispatchOne device nowNs).2.pollRequest earlier.1 = .unknown ∨
        ∃ outcome, (s.dispatchOne device nowNs).2.pollRequest earlier.1 = .complete outcome := by
  intro earlier hearlier
  obtain ⟨t, t', -, htracked, hmove, hafter⟩ := hrun.traced.dispatched hallowed hcommand
  obtain ⟨index, slot, _, _, _, hslot, -, hready, hname, -⟩ := hmove.dispatched_cases hrequest
  have hnodup := htracked.chronicle.submissions_nodup
  -- the places of the three requests
  obtain ⟨⟨id, request⟩, hmem, hid⟩ := mem_map.mp hbehind
  obtain ⟨k, hk⟩ := mem_iff_getElem?.mp hmem
  obtain ⟨i, hi⟩ := mem_iff_getElem?.mp hearlier
  have hlt := lt_length hi
  have hplace : (submissionsTo device history)[before.length + k]? =
      some (.fromParts index slot.generation, request) := by
    have hid : id = .fromParts index slot.generation := hid.trans hname
    rw [hsubmitted, getElem?_append_right (Nat.le_add_right _ _), Nat.add_sub_cancel_left, hk, hid]
  have hplaced := htracked.ordered.placed index slot hslot (held_of_isLive hready.live)
  obtain ⟨-, rfl, hsequence⟩ := hplaced.locate hnodup hplace
  have hfencePlace :
      (submissionsTo slot.device history)[before.length]? = some (fence.1, fence.2) := by
    rw [hsubmitted, getElem?_append_right (Nat.le_refl _), Nat.sub_self]
    rfl
  have hearlierPlace : (submissionsTo slot.device history)[i]? = some (earlier.1, earlier.2) := by
    rw [hsubmitted, getElem?_append_left hlt]
    exact hi
  have hdead := (htracked.fenced hpolicy).of_dispatchable htracked.ordered hnodup hslot hready
    hfencePlace hfence (by omega) hearlierPlace hlt
  exact pollRequest_of_not_live fun hlive =>
    hdead (Moves.liveAs ((Star.single hmove).trans hafter) htracked.wf rfl hlive)

/-- A write, a flush behind it, and the write done. -/
def fencedOps : List Op :=
  [.registerDevice smallDevice, .submit 0 sectorWrite, .submit 0 deviceFlush,
    .dispatchOne firstDevice 0,
    .complete ⟨.fromParts 0 1, firstDevice, 1, 0, 1, false⟩ .success]

theorem dispatchOne_keeps_fences_flush : ∃ command,
    ((execAll fencedOps smallQueue).2.dispatchOne firstDevice 0).1 = some command ∧
      command.operation = .flush ∧
      (((execAll fencedOps smallQueue).2.dispatchOne firstDevice 0).2.pollRequest (.fromParts 0 1) =
          .unknown ∨ ∃ outcome,
        ((execAll fencedOps smallQueue).2.dispatchOne firstDevice 0).2.pollRequest
          (.fromParts 0 1) =
          .complete outcome) := by
  obtain ⟨command, hcommand, hflush, hrequest, hid⟩ :
      ∃ command ∈ ((execAll fencedOps smallQueue).2.dispatchOne firstDevice 0).1,
        command.operation = .flush ∧ command.token.shutdownFlush = false ∧
          command.token.requestId = .fromParts 1 1 := by
    decide +kernel
  have hallowed : AllowedAll ⟨true, false, false, false⟩ fencedOps smallQueue := by
    decide +kernel
  have hnext : Allowed ⟨true, false, false, false⟩ (execAll fencedOps smallQueue).2
      (.dispatchOne firstDevice 0) := by
    decide +kernel
  have hsubmitted : submissionsTo firstDevice (execAll fencedOps smallQueue).1 =
      [(.fromParts 0 1, sectorWrite)] ++ (.fromParts 1 1, deviceFlush) :: [] := by
    decide +kernel
  refine ⟨command, hcommand, hflush, ?_⟩
  exact dispatchOne_keeps_fences rfl (run_execAll starts_smallQueue hallowed) hnext
    hcommand hrequest
    hsubmitted rfl (by rw [hid]; exact mem_cons_self) _ mem_cons_self

/-- A write that is out, a flush that is cancelled and a write behind it. -/
def crossingOps : List Op :=
  [.registerDevice smallDevice, .submit 0 sectorWrite, .submit 0 deviceFlush, .submit 0 sectorWrite,
    .dispatchOne firstDevice 0, .cancel (.fromParts 1 1)]

theorem dispatchOne_crosses_cancelled_fence :
    ∃ history s device nowNs command before fence after earlier, Run .any history s ∧
      (s.dispatchOne device nowNs).1 = some command ∧ command.token.shutdownFlush = false ∧
      submissionsTo device history = before ++ fence :: after ∧
      fence.2.operation.isFence = true ∧
      command.token.requestId ∈ (fence :: after).map Prod.fst ∧ earlier ∈ before ∧
      (s.dispatchOne device nowNs).2.pollRequest earlier.1 = .inFlight := by
  obtain ⟨command, hcommand, hrequest, hid⟩ :
      ∃ command ∈ ((execAll crossingOps smallQueue).2.dispatchOne firstDevice 0).1,
        command.token.shutdownFlush = false ∧ command.token.requestId = .fromParts 2 1 := by
    decide +kernel
  refine ⟨_, _, firstDevice, 0, command, [(.fromParts 0 1, sectorWrite)],
    (.fromParts 1 1, deviceFlush), [(.fromParts 2 1, sectorWrite)], (.fromParts 0 1, sectorWrite),
    run_execAll starts_smallQueue (allowedAll_any crossingOps _), hcommand, hrequest, ?_, rfl, ?_,
    mem_cons_self, ?_⟩
  · decide +kernel
  · rw [hid]
    exact mem_cons_of_mem _ mem_cons_self
  · decide +kernel

/-! ## Cancellation -/

theorem pollCancel_eq_some {token : DispatchToken} (h : (s.pollCancel device).1 = some token) :
    ∃ d dslot i slot child serial, s.table.Present device d dslot ∧ s.slots[i]? = some slot ∧
      slot.device = device ∧ slot.pendingOutcome.isSome = true ∧
      unnotifiedChild slot = some (child, serial) ∧ token = {
        requestId := .fromParts i slot.generation
        deviceId := device
        deviceEpoch := dslot.epoch
        childIndex := child
        serial := serial
        shutdownFlush := false } := by
  unfold pollCancel at h
  split at h
  · cases h
  rename_i dslot hdevSlot
  obtain ⟨d, hidx, hdev⟩ := bind_eq_some_iff.mp hdevSlot
  obtain ⟨dslot', hpres⟩ := deviceIndex_eq_some hidx
  cases hdev.symm.trans hpres.1
  split at h
  · cases h
  · rename_i i slot child serial htgt
    obtain ⟨hslot, hname, hpend, hch⟩ := cancelTarget_eq_some htgt
    exact ⟨d, dslot, i, slot, child, serial, hpres, hslot, hname, hpend, hch, (some.inj h).symm⟩

/-- No request of the device has ended with a command that could still be cancelled. -/
def CancelsAreLive (device : BlockDeviceId) (s : AsyncBlockQueue) : Prop :=
  ∀ slot ∈ s.slots, slot.device = device → slot.pendingOutcome.isSome = true →
    (unnotifiedChild slot).isSome = true → slot.isLive = true

instance (device : BlockDeviceId) (s : AsyncBlockQueue) : Decidable (s.CancelsAreLive device) :=
  inferInstanceAs (Decidable (∀ slot ∈ s.slots, slot.device = device →
    slot.pendingOutcome.isSome = true → (unnotifiedChild slot).isSome = true → slot.isLive = true))

/-- A command that the driver is asked to cancel was dispatched in the current epoch of its
device, is not complete, and the driver was not asked before. -/
theorem pollCancel_names_outstanding (hrun : Run policy history s) {device : BlockDeviceId}
    (hcancels : s.CancelsAreLive device) {token : DispatchToken}
    (htoken : (s.pollCancel device).1 = some token) :
    (∃ command, .dispatched command ∈ history ∧ command.token = token) ∧
      token.deviceId = device ∧ s.deviceEpoch device = some token.deviceEpoch ∧
      .completed token ∉ history ∧ .cancelling token ∉ history := by
  have htraced := hrun.traced
  have htracked := htraced.tracked
  obtain ⟨deviceIndex, deviceSlot, index, slot, child, serial, hpresent, hslot, hname, hpending,
    hunnotified, rfl⟩ := pollCancel_eq_some htoken
  have hmem := mem_of_getElem? hslot
  have hlive := hcancels slot hmem hname hpending (by rw [hunnotified]; rfl)
  have hchild := unnotifiedChild_eq_some hunnotified
  have htold := htracked.chronicle.told index slot hslot (held_of_isLive hlive)
  have hepoch : s.deviceEpoch device = some deviceSlot.epoch := by
    have hdevice : s.devices[deviceIndex]? = some deviceSlot := hpresent.1
    unfold deviceEpoch
    rw [deviceIndex_of_present htracked.wf.deviceCount hpresent, bind_some, hdevice, map_some]
  -- an event about this request is in its story
  have hstory : ∀ event ∈ history, event.request = some (.fromParts index slot.generation) →
      event ∈ story (.fromParts index slot.generation) history := fun event hmem hevent =>
    mem_filter.mpr ⟨hmem, decide_eq_true hevent⟩
  refine ⟨?_, rfl, hepoch, fun hcompleted => ?_, fun hcancelled => ?_⟩
  · obtain ⟨command, hcommand, hserial⟩ := htold.serial child serial false hchild
    have hissued := htold.issued child command hcommand
    have hcurrent := htracked.current index slot hslot hlive deviceIndex deviceSlot
      (hname ▸ hpresent) child serial false hchild command hcommand
    refine ⟨command, dispatched_of_mem_story (mem_of_getElem? hcommand), ?_⟩
    have hfields : command.token = ⟨command.token.requestId, command.token.deviceId,
      command.token.deviceEpoch, command.token.childIndex, command.token.serial,
      command.token.shutdownFlush⟩ := rfl
    rw [hfields, hissued.requestId, hissued.deviceId, hname, hcurrent, hissued.childIndex, hserial,
      hissued.flush]
  · have haccepted := htold.accepted_done _ (mem_filterMap.mpr ⟨_, hstory _ hcompleted rfl, rfl⟩)
    cases haccepted.symm.trans hchild
  · obtain ⟨state, hstate, hknown⟩ := htold.cancelled_known _ (mem_filterMap.mpr
      ⟨_, hstory _ hcancelled rfl, rfl⟩)
    cases hchild.symm.trans hstate
    cases hknown

/-- A write that is out and is cancelled. -/
def cancelOps : List Op :=
  [.registerDevice smallDevice, .submit 0 sectorWrite, .dispatchOne firstDevice 0,
    .cancel (.fromParts 0 1)]

theorem pollCancel_names_outstanding_write : ∃ token,
    ((execAll cancelOps smallQueue).2.pollCancel firstDevice).1 = some token ∧
      ∃ command, .dispatched command ∈ (execAll cancelOps smallQueue).1 ∧
        command.token = token := by
  have htoken : ((execAll cancelOps smallQueue).2.pollCancel firstDevice).1.isSome = true := by
    decide +kernel
  obtain ⟨token, htoken⟩ := isSome_iff_exists.mp htoken
  have hcancels : (execAll cancelOps smallQueue).2.CancelsAreLive firstDevice := by
    decide +kernel
  have hrun := run_execAll starts_smallQueue (allowedAll_any cancelOps smallQueue)
  exact ⟨token, htoken, (pollCancel_names_outstanding hrun hcancels htoken).1⟩

/-- A write that is out when its device is reset. -/
def resetOps : List Op :=
  [.registerDevice smallDevice, .submit 0 sectorWrite, .dispatchOne firstDevice 0,
    .resetDevice firstDevice]

theorem pollCancel_names_stranger_after_reset :
    ∃ history s device token, Run .any history s ∧ (s.pollCancel device).1 = some token ∧
      ∀ command, .dispatched command ∈ history → command.token ≠ token := by
  obtain ⟨token, htoken, hnot⟩ : ∃ token ∈
    ((execAll resetOps smallQueue).2.pollCancel firstDevice).1,
      token ∉ tokens (execAll resetOps smallQueue).1 := by
    decide +kernel
  refine ⟨_, _, firstDevice, token,
    run_execAll starts_smallQueue (allowedAll_any resetOps _), htoken, fun command hmem heq => ?_⟩
  exact hnot (mem_tokens.mpr ⟨command, hmem, heq⟩)

theorem mem_submissions_story {request : RequestSpec} :
    (id, request) ∈ submissions (story id history) ↔ (id, request) ∈ submissions history := by
  rw [submissions_story, mem_filter, and_iff_left (decide_eq_true rfl)]

theorem request_unique {request request' : RequestSpec} (h : Closed s.config id (story id history))
    (hmem : (id, request) ∈ submissions history)
    (hmem' : (id, request') ∈ submissions (story id history)) : request = request' := by
  obtain ⟨only, honly⟩ := length_eq_one_iff.mp
    (Nat.le_antisymm h.submitted (length_pos_of_mem hmem'))
  have hreq := mem_submissions_story.mpr hmem
  rw [honly, mem_singleton] at hreq hmem'
  exact (Prod.mk.inj (hreq.trans hmem'.symm)).2

theorem Sane.dispatchRequest_isSome (hs : s.Sane) {slotIndex d : Nat}
    (hready : s.isDispatchable slotIndex d = true) (nowNs : Nat) :
    ∃ command s', s.dispatchRequest d slotIndex nowNs = (some command, s') := by
  obtain ⟨slot, device, hslot, hdev, -, hready⟩ := isDispatchable_iff.mp hready
  have hshaped := (hs.wf.slotOk slot (mem_of_getElem? hslot)).shaped (held_of_isLive hready.live)
  obtain ⟨segments, -, heq⟩ := dispatchRequest_eq hs.valid hslot hdev hshaped hready.next nowNs
  exact ⟨_, _, heq⟩

/-- The commands of a transfer follow each other on the disk and in memory; those of a transfer
that succeeds cover all of it. -/
theorem transfer_is_split_exactly (hrun : Run policy history s) :
    (∀ id request buffer, (id, request) ∈ submissions history →
      request.operation.transfersData = true → request.buffer = some buffer →
      (commands (story id history)).length ≤
          (buffer.byteLen + s.config.childBytes - 1) / s.config.childBytes ∧
        Tiles request.lba (commands (story id history)) (request.lba +
          reach s.config buffer (commands (story id history)).length / sectorSize) ∧
        ((commands (story id history)).map (·.byteLen)).sum =
          reach s.config buffer (commands (story id history)).length ∧
        bytesOf ((commands (story id history)).flatMap (·.segments)) =
          (bytesOf buffer.segments).take
            (reach s.config buffer (commands (story id history)).length) ∧
        ((commands (story id history)).length =
            (buffer.byteLen + s.config.childBytes - 1) / s.config.childBytes →
          reach s.config buffer (commands (story id history)).length = buffer.byteLen) ∧
        ∀ completion ∈ completions (story id history), completion.outcome = .success →
          completion.bytesCompleted = buffer.byteLen ∧
            reach s.config buffer (commands (story id history)).length = buffer.byteLen) ∧
    (∀ deviceIndex slotIndex nowNs, s.isDispatchable slotIndex deviceIndex = true →
      ∃ command s', s.dispatchRequest deviceIndex slotIndex nowNs = (some command, s')) ∧
    ∀ deviceIndex device nowNs slotIndex s',
      (s.expireDeadlines nowNs).2.devices[deviceIndex]? = some device → device.present = true →
      device.inFlight < device.config.queueDepth →
      (s.expireDeadlines nowNs).2.selectRequest deviceIndex nowNs = (some slotIndex, s') →
        ∃ command s'', s'.dispatchRequest deviceIndex slotIndex nowNs = (some command, s'') := by
  have htraced := hrun.traced
  have hvalid := htraced.sane.valid
  refine ⟨fun id request buffer hmem htransfer hbuffer => ?_,
    fun deviceIndex slotIndex nowNs hready => htraced.sane.dispatchRequest_isSome hready nowNs,
    fun deviceIndex device nowNs slotIndex s' hdevice hpresent hdepth hselect => ?_⟩
  · have hclosed := htraced.tracked.chronicle.closed id
    obtain ⟨childCount, hshaped, hle, hpieces⟩ :=
      hclosed.pieces request buffer (mem_submissions_story.mpr hmem) htransfer hbuffer
    obtain ⟨buffer', hbuffer', hsectors, -, -, hcount⟩ := hshaped.transfer htransfer
    cases hbuffer.symm.trans hbuffer'
    obtain ⟨htiles, hsum, hbytes⟩ := tiles_of_isPiece hvalid hsectors 0
      (commands (story id history)) fun k command hk => by
        rw [Nat.zero_add]
        have hlt := lt_length hk
        exact ⟨hpieces k command hk, hshaped.piece_lt hvalid htransfer hbuffer (by omega)⟩
    have hstart : reach s.config buffer 0 = 0 := by
      unfold reach
      omega
    rw [hstart, Nat.zero_add, Nat.sub_zero] at hsum
    rw [hstart, Nat.zero_add, Nat.sub_zero, drop_zero] at hbytes
    rw [hstart, Nat.zero_add, Nat.zero_div, Nat.add_zero] at htiles
    refine ⟨hcount ▸ hle, htiles, hsum, hbytes, fun hall => ?_,
      fun completion hcompletion hsuccess => ?_⟩
    · rw [hall, ← hcount]
      exact hshaped.reach_eq hvalid htransfer hbuffer
    obtain ⟨request', hrequest', -, -, hbytes'⟩ := hclosed.completed completion hcompletion
    obtain rfl := request_unique hclosed hmem hrequest'
    exact hbytes' hsuccess buffer htransfer hbuffer
  · have hexpired : Refines .any s [] (s.expireDeadlines nowNs).2 :=
      expireDeadlines_refines htraced.sane nowNs nofun
    rcases @dispatchOne_cases .any _ _ _ (hexpired.sane htraced.sane) hdevice hpresent hdepth
      nowNs with
      ⟨_, hnone, -⟩ | ⟨index, s1, command, s'', hsome, hdispatch, -⟩
    · cases hselect.symm.trans hnone
    · obtain ⟨hindex, rfl⟩ := Prod.mk.inj (hselect.symm.trans hsome)
      cases hindex
      exact ⟨command, s'', hdispatch⟩

/-- A device that wants its addresses at multiples of a page. -/
def pageDevice : BlockDeviceConfig :=
  ⟨1024, 2, true, { DmaConstraints.dma64 with addressAlignment := 4096 }⟩

/-- A sector of one page, and most of the two pages after it. -/
def unevenPages : BlockBuffer where
  byteLen := 8192
  segments := [⟨4096, 512⟩, ⟨8192, 7680⟩]
  kind := .segments
  bounce := none
  count := by decide
  sound := by
    intro segment hmem
    rcases mem_pair.mp hmem with rfl | rfl
    · exact ⟨by decide, by decide⟩
    · exact ⟨by decide, by decide⟩
  total := rfl
  positive := by decide
  bounded := by decide

/-- A write in children of a page, the first of which is out. -/
def pageOps (buffer : BlockBuffer) : List Op :=
  [.registerDevice pageDevice,
    .submit 0 ⟨firstDevice, .write, 0, some buffer, .normal, none⟩, .dispatchOne firstDevice 0]

/-- Two children over two segments. -/
theorem transfer_is_split_exactly_write :
    let history := (execAll (pageOps unevenPages ++ [.dispatchOne firstDevice 0]) smallQueue).1
    let sent := commands (story (.fromParts 0 1) history)
    sent.map (·.segments) = [[⟨4096, 512⟩, ⟨8192, 3584⟩], [⟨11776, 4096⟩]] ∧ Tiles 0 sent 16 ∧
      bytesOf (sent.flatMap (·.segments)) = (bytesOf unevenPages.segments).take 8192 := by
  intro history sent
  have hrun := run_execAll starts_smallQueue
    (allowedAll_any (pageOps unevenPages ++ [.dispatchOne firstDevice 0]) smallQueue)
  have hmem : (BlockRequestId.fromParts 0 1,
      ⟨firstDevice, .write, 0, some unevenPages, .normal, none⟩) ∈ submissions history := by
    decide +kernel
  have hreach : reach (execAll (pageOps unevenPages ++ [.dispatchOne firstDevice 0])
      smallQueue).2.config unevenPages sent.length = 8192 := by
    decide +kernel
  obtain ⟨-, htiles, -, hbytes, -⟩ :=
    (transfer_is_split_exactly hrun).1 _ _ unevenPages hmem rfl rfl
  rw [hreach] at htiles hbytes
  exact ⟨by decide +kernel, htiles, hbytes⟩

/-- The segments of a command are few and short enough for its device and lie where the device
can reach them; they pass its check exactly if its child starts at an aligned place of a segment
or between two. -/
theorem dispatchOne_fits_device (hrun : Run .any history s) {device : BlockDeviceId} {nowNs : Nat}
    {command : DispatchCommand} (hcommand : (s.dispatchOne device nowNs).1 = some command)
    (hrequest : command.token.shutdownFlush = false) :
    ∃ index deviceSlot, s.table.Present command.token.deviceId index deviceSlot ∧
      command.segments.length ≤ deviceSlot.config.dma.maxSegments ∧
      (∀ segment ∈ command.segments, Reachable deviceSlot.config.dma segment) ∧
      ((∀ segment ∈ command.segments,
          BlockBuffer.validateSegment deviceSlot.config.dma segment = .ok ()) ↔
        ∀ request buffer, (command.token.requestId, request) ∈ submissions history →
          request.operation.transfersData = true → request.buffer = some buffer →
          CutAligned deviceSlot.config.dma.addressAlignment
            (command.token.childIndex * s.config.childBytes) buffer) := by
  have htraced := hrun.traced
  obtain ⟨t, t', hbefore, htracked, hmove, -⟩ := htraced.dispatched (allowed_any s _) hcommand
  obtain ⟨index, slot, deviceIndex, deviceSlot, offset, hslot, hpresent, hready, hname, hdevice, -,
    hchild, hslice, -⟩ := hmove.dispatched_cases hrequest
  obtain ⟨old, hold, hconfig⟩ := Moves.present_of_quiet hbefore htraced.tracked.wf hpresent
  have hfits := htracked.fitted slot (mem_of_getElem? hslot) hready.live _ _ hpresent
  rw [hconfig] at hfits
  obtain ⟨hcount, hreachable, haligned⟩ := childSlice_fits
    (QueueConfig.childBytes_of_isValid htraced.sane.valid).1 hfits hslice
  refine ⟨deviceIndex, old, hdevice ▸ hold, hcount, hreachable, ?_⟩
  have htold := htracked.chronicle.told index slot hslot (held_of_isLive hready.live)
  -- the request of the slot is the one that was submitted under this name
  have hsubmitted : ∀ request, (command.token.requestId, request) ∈ submissions history ↔
      request = slot.spec := by
    intro request
    rw [hname, ← mem_submissions_story, htold.submitted, mem_singleton, Prod.mk.injEq,
      and_iff_right rfl]
  calc (∀ segment ∈ command.segments, BlockBuffer.validateSegment old.config.dma segment = .ok ())
      ↔ ∀ segment ∈ command.segments,
          segment.physicalAddress % old.config.dma.addressAlignment = 0 :=
        forall₂_congr fun segment hmem =>
          validateSegment_eq_ok.trans (and_iff_right (hreachable segment hmem))
    _ ↔ _ := haligned
    _ ↔ _ := by
      simp only [hsubmitted, hchild]
      refine ⟨fun h request buffer heq => ?_, fun h buffer => h slot.spec buffer rfl⟩
      subst heq
      exact h buffer

/-- Two pages in a row. -/
def twoPages : BlockBuffer where
  byteLen := 8192
  segments := [⟨4096, 8192⟩]
  kind := .segments
  bounce := none
  count := by decide
  sound := forall_mem_singleton.mpr ⟨by decide, by decide⟩
  total := rfl
  positive := by decide
  bounded := by decide

/-- The second child starts inside the segment, at a page of it. -/
theorem dispatchOne_fits_device_write : ∃ command, ∃ deviceSlot : DeviceSlot,
    ((execAll (pageOps twoPages) smallQueue).2.dispatchOne firstDevice 0).1 = some command ∧
      command.segments = [⟨8192, 4096⟩] ∧ deviceSlot.config.dma.addressAlignment = 4096 ∧
      ∀ segment ∈ command.segments,
        BlockBuffer.validateSegment deviceSlot.config.dma segment = .ok () := by
  obtain ⟨command, hcommand, hsegments, hchild, hrequest⟩ :
      ∃ command ∈ ((execAll (pageOps twoPages) smallQueue).2.dispatchOne firstDevice 0).1,
        command.segments = [⟨8192, 4096⟩] ∧
          command.token.childIndex * (execAll (pageOps twoPages) smallQueue).2.config.childBytes =
            4096 ∧ command.token.shutdownFlush = false := by
    decide +kernel
  have halignment : ∀ slot ∈ (execAll (pageOps twoPages) smallQueue).2.devices,
      slot.present = true → slot.config.dma.addressAlignment = 4096 := by
    decide +kernel
  have hbuffers : ∀ entry ∈ submissions (execAll (pageOps twoPages) smallQueue).1,
      entry.2.buffer = some twoPages := by
    decide +kernel
  obtain ⟨index, deviceSlot, hpresent, -, -, hvalid⟩ := dispatchOne_fits_device
    (run_execAll starts_smallQueue (allowedAll_any (pageOps twoPages) _)) hcommand hrequest
  have hpages := halignment deviceSlot (mem_of_getElem? hpresent.1) hpresent.2.1
  refine ⟨command, deviceSlot, hcommand, hsegments, hpages, hvalid.mpr ?_⟩
  intro request buffer hmem _ hbuffer before segment after heq
  cases hbuffer.symm.trans (hbuffers _ hmem)
  rw [hpages, hchild]
  cases before with
  | nil => exact fun _ _ => rfl
  | cons _ before => simp [twoPages] at heq

theorem dispatchOne_breaks_alignment :
    ∃ history s device nowNs command index deviceSlot segment, Run .any history s ∧
      (s.dispatchOne device nowNs).1 = some command ∧
      s.table.Present command.token.deviceId index deviceSlot ∧ segment ∈ command.segments ∧
      segment.physicalAddress % deviceSlot.config.dma.addressAlignment ≠ 0 := by
  obtain ⟨command, hcommand, hdevice, segment, hmem, hunaligned⟩ :
      ∃ command ∈ ((execAll (pageOps unevenPages) smallQueue).2.dispatchOne firstDevice 0).1,
        command.token.deviceId = firstDevice ∧
          ∃ segment ∈ command.segments, segment.physicalAddress % 4096 ≠ 0 := by
    decide +kernel
  obtain ⟨slot, hslot, hthere, hname, halignment⟩ :
      ∃ slot ∈ (execAll (pageOps unevenPages) smallQueue).2.table.devices[0]?,
        slot.present = true ∧ firstDevice = .fromParts 0 slot.generation ∧
          slot.config.dma.addressAlignment = 4096 := by
    decide +kernel
  refine ⟨_, _, firstDevice, 0, command, 0, slot, segment,
    run_execAll starts_smallQueue (allowedAll_any (pageOps unevenPages) _), hcommand, ?_, hmem, ?_⟩
  · rw [hdevice]
    exact ⟨hslot, hthere, hname⟩
  · rwa [halignment]

/-! ## Shutdown -/

theorem submit_of_not_running (h : s.shutdown ≠ .running) (nowNs : Nat) (request : RequestSpec) :
    s.submit nowNs request = (.error ⟨.quiescing, request⟩, s) := by
  unfold submit validateSubmission
  rw [if_pos h]

theorem beginShutdown_shutdown (s : AsyncBlockQueue) : s.beginShutdown.shutdown ≠ .running := by
  unfold beginShutdown
  split
  · assumption
  rcases (updateShutdownState_leaves _).shutdown with hsame | ⟨-, hdrained, -⟩
  · rw [hsame]
    exact nofun
  · rw [hdrained]
    exact nofun

theorem Moves.not_running {config : QueueConfig} {t t' : Table}
    (hmoves : Moves config policy t events t') (h : t.shutdown ≠ .running) :
    t'.shutdown ≠ .running := by
  refine hmoves.invariant (I := fun _ t => t.shutdown ≠ .running) h fun _ t1 _ t2 hnot hmove => ?_
  rcases hmove.shutdown_cases with hsame | ⟨hqsc, -⟩ | ⟨-, hdrained, -⟩
  · rw [hsame]
    exact hnot
  · rw [hqsc]
    exact nofun
  · rw [hdrained]
    exact nofun

theorem Moves.stays_dead {config : QueueConfig} {t t' : Table}
    (hmoves : Moves config policy t events t') (hwf : t.Wf config) (h : t.shutdown ≠ .running)
    (hdead : ∀ slot ∈ t.slots, slot.isLive = false) : ∀ slot ∈ t'.slots, slot.isLive = false := by
  refine (hmoves.invariant (I := fun _ t => t.Wf config ∧ t.shutdown ≠ .running ∧
    ∀ slot ∈ t.slots, slot.isLive = false) ⟨hwf, h, hdead⟩ fun _ t1 _ t2 hinv hmove => ?_).2.2
  obtain ⟨hwf, hinv⟩ := hinv
  refine ⟨hmove.wf hwf, Moves.not_running (.single hmove) hinv.1, fun slot' hmem => ?_⟩
  refine Bool.eq_false_iff.mpr fun hlive => ?_
  obtain ⟨i, hget⟩ := mem_iff_getElem?.mp hmem
  rcases hmove.live_cases hwf hget hlive with ⟨slot, hslot, hslotLive, -⟩ | ⟨hrun, -⟩
  · exact absurd (hslotLive.symm.trans (hinv.2 slot (mem_of_getElem? hslot))) nofun
  · exact hinv.1 hrun

theorem Traced.not_running (hs : s.Traced policy history) (hsteps : Star (Step policy) s events s')
    (h : s.shutdown ≠ .running) : s'.shutdown ≠ .running := by
  have hall := hsteps.invariant
    (I := fun past s' => s'.Traced policy (history ++ past) ∧ s'.shutdown ≠ .running)
    ⟨by rwa [append_nil], h⟩ fun past s1 _ s2 hinv hstep => by
      obtain ⟨op, hallowed⟩ := hstep
      have hrefines := exec_refines hinv.1.sane hallowed
      refine ⟨?_, Moves.not_running hrefines.moves hinv.2⟩
      rw [← append_assoc]
      exact hrefines.traced hinv.1
  exact hall.2

/-- A flush goes to a device of a queue that quiesces, when the device has nothing else to do. -/
theorem dispatchOne_flush (hs : s.Sane) {command : DispatchCommand}
    (hcmd : (s.dispatchOne device nowNs).1 = some command)
    (hflush : command.token.shutdownFlush = true) :
    ∃ i slot, s.table.Present device i slot ∧ command.token.deviceId = device ∧
      s.shutdown = .quiescing ∧ slot.shutdownFlush = .pending ∧ slot.inFlight = 0 ∧
      ∀ other ∈ (s.expireDeadlines nowNs).2.slots, other.device = device →
        other.isLive = false := by
  have hexpired : Refines .any s [] (s.expireDeadlines nowNs).2 :=
    expireDeadlines_refines hs nowNs nofun
  have hleaves := expireDeadlines_leaves nowNs s
  unfold dispatchOne at hcmd
  simp only at hcmd
  cases hidx : (s.expireDeadlines nowNs).2.deviceIndex device with
  | none =>
    rw [hidx] at hcmd
    cases hcmd
  | some d =>
    rw [hidx] at hcmd
    simp only at hcmd
    obtain ⟨slot, hget, hthere, hname⟩ := deviceIndex_eq_some hidx
    have hget : (s.expireDeadlines nowNs).2.devices[d]? = some slot := hget
    split at hcmd
    · cases hcmd
    rcases selectRequest_cases (hexpired.sane hs).weights hget nowNs with
      ⟨s', hsel, ⟨devices, hdevs, rfl⟩, -⟩ | ⟨i, priority, s', hsel, -⟩
    · rw [hsel] at hcmd
      simp only at hcmd
      obtain ⟨slot', hslot', _, _, rfl⟩ := forall₂_getElem? hdevs hget
      unfold dispatchShutdownFlush at hcmd
      simp only [hslot'] at hcmd
      split at hcmd
      · cases hcmd
      rename_i hidle
      simp only [ne_eq, not_or, not_not] at hidle
      obtain ⟨hqsc, hpend, hzero, hnone⟩ := hidle
      cases hcmd
      refine ⟨d, slot, ⟨by rw [table_devices, ← hleaves.devices]; exact hget, hthere, hname⟩,
        hname.symm, ?_, hpend, hzero, fun other hmem hother => ?_⟩
      · rcases hleaves.shutdown with hsame | ⟨hbef, -⟩
        · exact hsame.symm.trans hqsc
        · exact hbef
      · refine Bool.eq_false_iff.mpr fun hlive =>
          hnone (any_eq_true.mpr ⟨other, hmem, ?_⟩)
        rw [Bool.and_eq_true, hother, (hexpired.sane hs).wf.index_of_present ⟨hget, hthere, hname⟩]
        exact ⟨decide_eq_true rfl, hlive⟩
    · rw [hsel] at hcmd
      simp only at hcmd
      have hreq := dispatchRequest_shutdownFlush (Prod.ext hcmd rfl)
      exact absurd (hreq.symm.trans hflush) Bool.false_ne_true

theorem Traced.drained (hs : s.Traced policy history) (hallowed : Allowed policy s op)
    (hbef : s.shutdown ≠ .drained) (hafter : (exec op s).2.shutdown = .drained) :
    (∀ slot ∈ (exec op s).2.slots, slot.isLive = false) ∧
      ∀ device ∈ (exec op s).2.devices, device.inFlight = 0 ∧
        (device.present = true → device.shutdownFlush = .done ∨
          device.shutdownFlush = .failed) := by
  have hafterwards := ((exec_refines hs.sane hallowed).traced hs).tracked
  have hidle : (exec op s).2.table.Idle := ⟨hafterwards.flushing.drained hafter,
    hafterwards.flushing.paid (by rw [table_shutdown, hafter]; exact nofun)⟩
  -- the call left a queue that was not drained, so it kept to the rule for such queues
  have hdrains : Allowed ⟨false, false, false, true⟩ s op :=
    allowed_of rfl rfl (fun _ => hbef) nofun
  have hstart : s.table.shutdown ≠ .running → s.table.Asked := by
    intro hrun
    refine hs.tracked.flushing.asked ?_
    cases hst : s.shutdown with
    | running => exact absurd hst hrun
    | quiescing => exact hst
    | drained => exact absurd hst hbef
  have hasked : (exec op s).2.table.Asked := ((exec_refines hs.sane hdrains).moves.invariant
      (I := fun _ t => t.Wf s.config ∧ (t.shutdown ≠ .running → t.Asked)) ⟨hs.tracked.wf, hstart⟩
      fun _ _ _ _ hinv hmove => ⟨hmove.wf hinv.1, hmove.asked hinv.1 hinv.2 (.inr rfl)⟩).2
      (by rw [table_shutdown, hafter]; exact nofun)
  refine ⟨hidle.requests, fun device hmem =>
    ⟨hafterwards.busy.inFlight_of_idle hidle hmem, fun hpres => ?_⟩⟩
  have howes := hidle.flushes device hmem
  unfold DeviceSlot.owesFlush at howes
  rw [hpres, Bool.true_and] at howes
  cases hflush : device.shutdownFlush with
  | none => exact absurd hflush (hasked device hmem hpres)
  | pending => simp [hflush] at howes
  | inFlight serial => simp [hflush] at howes
  | done => exact .inl rfl
  | failed => exact .inr rfl

/-- Once the shutdown has begun nothing is accepted; a device that can flush is flushed once, when
it has nothing else to do; and the queue is drained only when everything has ended. -/
theorem shutdown_is_orderly (hrun : Run policy history s) :
    (∀ events s', Star (Step policy) s.beginShutdown events s' → ∀ nowNs request,
      s'.submit nowNs request = (.error ⟨.quiescing, request⟩, s')) ∧
    (∀ device, (flushesTo device history).length ≤ 1) ∧
    (∀ device nowNs command, (s.dispatchOne device nowNs).1 = some command →
      command.token.shutdownFlush = true →
        ∃ index slot, s.table.Present device index slot ∧ command.token.deviceId = device ∧
          (policy.flushes = true → slot.config.supportsFlush = true) ∧ slot.inFlight = 0 ∧
          ∀ other ∈ (s.expireDeadlines nowNs).2.slots, other.device = device →
            other.isLive = false) ∧
    ∀ op, Allowed policy s op → s.shutdown ≠ .drained → (exec op s).2.shutdown = .drained →
      (∀ slot ∈ (exec op s).2.slots, slot.isLive = false) ∧
      ∀ device ∈ (exec op s).2.devices, device.inFlight = 0 ∧ (device.present = true →
          device.shutdownFlush = .done ∨ device.shutdownFlush = .failed) := by
  have htraced := hrun.traced
  refine ⟨fun events s' hsteps => ?_, htraced.tracked.flushing.once,
    fun device nowNs command hcommand hflush => ?_,
    fun op hallowed hbefore hafter => htraced.drained hallowed hbefore hafter⟩
  · have hbegun : Refines policy s [] s.beginShutdown := beginShutdown_refines htraced.sane
    exact submit_of_not_running
      ((hbegun.traced htraced).not_running hsteps (beginShutdown_shutdown s))
  · obtain ⟨index, slot, hpresent, hname, -, hpending, hzero, hquiet⟩ :=
      dispatchOne_flush htraced.sane hcommand hflush
    exact ⟨index, slot, hpresent, hname, fun hpolicy => htraced.tracked.flushing.able hpolicy slot
      (mem_of_getElem? hpresent.1) hpresent.2.1 hpending, hzero, hquiet⟩

/-- A queue of one device that begins to shut down. -/
def quiescingOps : List Op := [.registerDevice smallDevice, .beginShutdown]

theorem shutdown_is_orderly_flush : ∃ command slot,
    ((execAll quiescingOps smallQueue).2.dispatchOne firstDevice 0).1 = some command ∧
      slot ∈ (execAll quiescingOps smallQueue).2.devices ∧ slot.config.supportsFlush = true := by
  obtain ⟨command, hcommand, hflush⟩ :
      ∃ command ∈ ((execAll quiescingOps smallQueue).2.dispatchOne firstDevice 0).1,
        command.token.shutdownFlush = true := by
    decide +kernel
  have hallowed : AllowedAll ⟨false, false, true, false⟩ quiescingOps smallQueue := by
    decide +kernel
  obtain ⟨index, slot, hpresent, -, hable, -⟩ :=
    (shutdown_is_orderly (run_execAll starts_smallQueue hallowed)).2.2.1 _ _ _ hcommand hflush
  exact ⟨command, slot, hcommand, mem_of_getElem? hpresent.1, hable rfl⟩

/-- A device without a flush that comes while the queue quiesces. -/
def lateOps : List Op :=
  [.registerDevice smallDevice, .beginShutdown,
    .registerDevice { smallDevice with supportsFlush := false }]

theorem dispatchOne_flushes_late_device :
    ∃ history s device nowNs command index slot, Run .any history s ∧
      (s.dispatchOne device nowNs).1 = some command ∧ command.token.shutdownFlush = true ∧
      s.table.Present command.token.deviceId index slot ∧ slot.config.supportsFlush = false := by
  obtain ⟨command, hcommand, hflush, hdevice⟩ :
      ∃ command ∈ ((execAll lateOps smallQueue).2.dispatchOne (.fromParts 1 1) 0).1,
        command.token.shutdownFlush = true ∧ command.token.deviceId = .fromParts 1 1 := by
    decide +kernel
  obtain ⟨slot, hslot, hthere, hname, hunable⟩ :
      ∃ slot ∈ (execAll lateOps smallQueue).2.table.devices[1]?,
        slot.present = true ∧ BlockDeviceId.fromParts 1 1 = .fromParts 1 slot.generation ∧
          slot.config.supportsFlush = false := by
    decide +kernel
  refine ⟨_, _, .fromParts 1 1, 0, command, 1, slot,
    run_execAll starts_smallQueue (allowedAll_any lateOps _), hcommand, hflush, ?_, hunable⟩
  rw [hdevice]
  exact ⟨hslot, hthere, hname⟩

/-- The next command of a request of the device may be dispatched. -/
def Ready (device : BlockDeviceId) (deviceIndex index : Nat) (slot : RequestSlot)
    (s : AsyncBlockQueue) : Prop :=
  s.slots[index]? = some slot ∧ slot.device = device ∧ s.isDispatchable index deviceIndex = true

/-- If a request is ready, one is served: background work if it was passed over for too long. -/
theorem dispatchOne_serves (hs : s.Sane) {deviceIndex : Nat} {deviceSlot : DeviceSlot}
    (hpres : s.table.Present device deviceIndex deviceSlot)
    (hdepth : deviceSlot.inFlight < deviceSlot.config.queueDepth) {index : Nat} {slot : RequestSlot}
    (hready : Ready device deviceIndex index slot (s.expireDeadlines nowNs).2) :
    ∃ command, (s.dispatchOne device nowNs).1 = some command ∧
      command.token.shutdownFlush = false ∧ command.token.deviceId = device ∧
      (slot.priority = .background →
        s.config.backgroundProgressInterval.toNat ≤ deviceSlot.nonBackgroundDispatches →
          command.priority = .background) := by
  have hexpired : Refines .any s [] (s.expireDeadlines nowNs).2 :=
    expireDeadlines_refines hs nowNs nofun
  have hleaves := expireDeadlines_leaves nowNs s
  rw [dispatchOne_eq hs.wf.deviceCount hpres, if_neg (Nat.not_le.mpr hdepth)]
  generalize (s.expireDeadlines nowNs).2 = s1 at hexpired hleaves hready ⊢
  have hs1 := hexpired.sane hs
  have hdev : s1.devices[deviceIndex]? = some deviceSlot := by
    rw [hleaves.devices]
    exact hpres.1
  have helig : Eligible deviceIndex nowNs s1 slot.priority := by
    have hname : slot.device.index = some deviceIndex := by
      rw [hready.2.1]
      exact hs.wf.index_of_present hpres
    obtain ⟨entry, hmem, hcandidate⟩ := hs1.queued.candidate hs1.wf hready.1 hname hready.2.2 nowNs
    exact ⟨entry, hmem, by rw [hcandidate]; exact nofun⟩
  rcases @dispatchOne_cases .any _ _ _ hs1 hdev hpres.2.1 hdepth nowNs with
    ⟨_, -, -, hnone⟩ | ⟨i, s2, command, s', hsel, hdisp, -, hname, hforced⟩
  · exact absurd helig (hnone slot.priority)
  rw [hsel]
  simp only
  rw [hdisp]
  refine ⟨command, rfl, dispatchRequest_shutdownFlush hdisp,
    hname.trans hpres.2.2.symm, fun hbackground => ?_⟩
  rw [← hleaves.config]
  exact hforced (hbackground ▸ helig)

/-- A run that lets a device keep its epoch when it is stopped has ended every request. -/
theorem Run.epochs_or_dead (hrun : Run .any history s) : Run ⟨false, true, false, false⟩ history s ∨
      s.shutdown ≠ .running ∧ ∀ slot ∈ s.slots, slot.isLive = false := by
  obtain ⟨s0, hstarts, hsteps⟩ := hrun
  have hall := hsteps.invariant (I := fun past s => s.Traced .any past ∧
    (Run ⟨false, true, false, false⟩ past s ∨
      s.shutdown ≠ .running ∧ ∀ slot ∈ s.slots, slot.isLive = false))
    ⟨Run.traced ⟨s0, hstarts, .refl _⟩, .inl ⟨s0, hstarts, .refl _⟩⟩
    fun past s _ _ hinv hstep => by
      obtain ⟨op, hallowed⟩ := hstep
      obtain ⟨htraced, hinv⟩ := hinv
      have hrefines := exec_refines htraced.sane hallowed
      refine ⟨hrefines.traced htraced, ?_⟩
      rcases hinv with ⟨s1, hstarts1, hsteps1⟩ | ⟨hstopped, hdead⟩
      · by_cases hkeeps : Allowed ⟨false, true, false, false⟩ s op
        · exact .inl ⟨s1, hstarts1, hsteps1.tail (.call op hkeeps)⟩
        · -- only a forced shutdown breaks this rule
          have hforce : op = .forceShutdown := by
            by_contra hother
            exact hkeeps (allowed_of rfl rfl nofun fun _ heq => absurd heq hother)
          subst hforce
          exact .inr (forceShutdown_stops htraced.sane)
      · exact .inr ⟨Moves.not_running hrefines.moves hstopped,
          Moves.stays_dead hrefines.moves htraced.sane.wf hstopped hdead⟩
  exact hall.2

/-- A request that is ready is not left waiting, a device with nothing in flight has one that is
ready, and background work that is ready is passed over for a bounded number of commands.  What the
device counts is in flight only if the driver is honest: it counts down for every report. -/
theorem scheduler_makes_progress (hrun : Run .any history s) {device : BlockDeviceId}
    {deviceIndex : Nat} {deviceSlot : DeviceSlot}
    (hpresent : s.table.Present device deviceIndex deviceSlot) :
    (∀ nowNs, deviceSlot.inFlight < deviceSlot.config.queueDepth →
      (∃ index slot, Ready device deviceIndex index slot (s.expireDeadlines nowNs).2) →
        ∃ command, (s.dispatchOne device nowNs).1 = some command) ∧
    (∀ slot ∈ s.slots, slot.device = device → slot.isLive = true → slot.pendingOutcome = none →
      (∀ other ∈ s.slots, other.device = device → other.isLive = true → other.inFlight = 0) ∨
        Honest history ∧ deviceSlot.inFlight = 0 →
          ∃ index first, Ready device deviceIndex index first s) ∧
    ∀ nowNs command, (s.dispatchOne device nowNs).1 = some command →
      (∃ index slot, Ready device deviceIndex index slot (s.expireDeadlines nowNs).2 ∧
        slot.priority = .background) →
      streak device (history ++ [.dispatched command]) ≤
        s.config.backgroundProgressInterval.toNat := by
  have htraced := hrun.traced
  refine ⟨fun nowNs hdepth hready => ?_, fun slot hmem hdevice hlive hnone hidle => ?_,
    fun nowNs command hcommand hready => ?_⟩
  · obtain ⟨index, slot, hready⟩ := hready
    obtain ⟨command, hcommand, -⟩ := dispatchOne_serves htraced.sane hpresent hdepth hready
    exact ⟨command, hcommand⟩
  · have hzero : ∀ other ∈ s.slots, other.device = slot.device → other.isLive = true →
        other.inFlight = 0 := by
      intro other hother hsame hotherLive
      rcases hidle with hidle | ⟨hhonest, hzero⟩
      · exact hidle other hother (hsame.trans hdevice) hotherLive
      rcases hrun.epochs_or_dead with hkept | ⟨-, hdead⟩
      · have htracked := hkept.traced.tracked
        have hthere : s.table.Present other.device deviceIndex deviceSlot := by
          rw [hsame, hdevice]
          exact hpresent
        exact (htracked.accounts rfl hhonest).slot_inFlight htracked.wf htracked.chronicle
          htracked.current hother hotherLive hthere hzero
      · exact absurd (hotherLive.symm.trans (hdead other hother)) nofun
    obtain ⟨first, hfirst, hsame, hdispatchable⟩ :=
      htraced.tracked.ordered.exists_dispatchable htraced.tracked.wf hmem hlive hzero
    obtain ⟨index, hindex⟩ := mem_iff_getElem?.mp hfirst
    exact ⟨index, first, hindex, hsame.trans hdevice,
      isDispatchable_iff.mpr ⟨first, deviceSlot, hindex, hpresent.1, hpresent.2.1, hdispatchable⟩⟩
  · obtain ⟨index, slot, hready, hbackground⟩ := hready
    have hdepth : deviceSlot.inFlight < deviceSlot.config.queueDepth := by
      refine Nat.not_le.mp fun hfull => ?_
      rw [dispatchOne_eq htraced.sane.wf.deviceCount hpresent, if_pos hfull] at hcommand
      cases hcommand
    obtain ⟨other, hother, hrequest, hname, hforced⟩ :=
      dispatchOne_serves htraced.sane hpresent hdepth hready
    cases hcommand.symm.trans hother
    have hcounted := htraced.tracked.counted deviceIndex deviceSlot hpresent.1 hpresent.2.1
    rw [← hpresent.2.2] at hcounted
    have hstreak := streak_dispatched history hrequest
    rw [hname] at hstreak
    rw [hstreak]
    split
    · exact Nat.zero_le _
    rename_i hother
    have hlt := Nat.not_le.mp (mt (hforced hbackground) hother)
    have hword := s.config.backgroundProgressInterval.toNat_lt
    unfold u32Max at hcounted
    omega

/-- A write in the background, and one before it. -/
def backgroundOps : List Op :=
  [.registerDevice smallDevice, .submit 0 { sectorWrite with priority := .background },
    .submit 0 sectorWrite]

/-- The background is passed over once. -/
theorem scheduler_makes_progress_write :
    ∃ command, ((execAll backgroundOps smallQueue).2.dispatchOne firstDevice 0).1 = some command ∧
      streak firstDevice ((execAll backgroundOps smallQueue).1 ++ [.dispatched command]) = 1 ∧
      streak firstDevice ((execAll backgroundOps smallQueue).1 ++ [.dispatched command]) ≤
        (execAll backgroundOps smallQueue).2.config.backgroundProgressInterval.toNat := by
  obtain ⟨deviceSlot, hslot, hthere, hdepth, hname⟩ :
      ∃ slot ∈ (execAll backgroundOps smallQueue).2.devices[0]?,
        slot.present = true ∧ slot.inFlight < slot.config.queueDepth ∧
          firstDevice = .fromParts 0 slot.generation := by
    decide +kernel
  obtain ⟨slot, hrequest, howner, hpriority, hdispatchable⟩ :
      ∃ slot ∈ ((execAll backgroundOps smallQueue).2.expireDeadlines 0).2.slots[0]?,
        slot.device = firstDevice ∧ slot.priority = .background ∧
          ((execAll backgroundOps smallQueue).2.expireDeadlines 0).2.isDispatchable 0 0 = true := by
    decide +kernel
  obtain ⟨hserves, -, hbounded⟩ := scheduler_makes_progress
    (run_execAll starts_smallQueue (allowedAll_any backgroundOps _)) ⟨hslot, hthere, hname⟩
  obtain ⟨command, hcommand⟩ := hserves 0 hdepth ⟨0, slot, hrequest, howner, hdispatchable⟩
  have honce : ∀ command ∈ ((execAll backgroundOps smallQueue).2.dispatchOne firstDevice 0).1,
      streak firstDevice ((execAll backgroundOps smallQueue).1 ++ [.dispatched command]) = 1 := by
    decide +kernel
  exact ⟨command, hcommand, honce command hcommand, hbounded 0 command hcommand
    ⟨0, slot, ⟨hrequest, howner, hdispatchable⟩, hpriority⟩⟩

/-! ## Ownership of the memory -/

theorem submit_eq_error {request : RequestSpec} {failure : SubmitFailure}
    (h : (s.submit nowNs request).1 = .error failure) :
    failure.request = request ∧ (s.submit nowNs request).2 = s := by
  generalize hresult : s.submit nowNs request = result at h ⊢
  unfold submit at hresult
  simp only at hresult
  repeat' split at hresult
  all_goals
    subst hresult
    cases h <;> exact ⟨rfl, rfl⟩

theorem takeCompletion_eq_some {completion : RequestCompletion}
    (h : (s.takeCompletion id).1 = some completion) :
    ∃ i slot, s.slots[i]? = some slot ∧ slot.isHeld = true ∧ slot.isLive = false ∧
      id = .fromParts i slot.generation ∧ completion.bounce = slot.buffer.bind (·.bounce) := by
  unfold takeCompletion at h
  split at h
  · cases h
  rename_i i slot hfound
  obtain ⟨hslot, rfl, hheld⟩ := exists_of_requestIndex_bind hfound
  split at h
  · cases h
  rename_i hterm
  split at h
  · cases h
  cases h
  refine ⟨i, slot, hslot, hheld, ?_, rfl, rfl⟩
  unfold isLive
  rw [not_not.mp hterm]
  rfl

/-- The memory of a request stays with the queue until no device can reach it, unless a forced
shutdown finds a device in its last epoch. -/
theorem memory_is_owned (hrun : Run policy history s) :
    (∀ id completion, (s.takeCompletion id).1 = some completion →
      completions (story id history) = [] ∧
        (policy.epochs = true → Honest history → ∀ command ∈ commands (story id history),
          Settled history command.token) ∧
          ∃ request, (id, request) ∈ submissions history ∧
            completion.bounce = request.buffer.bind (·.bounce)) ∧
    (policy.epochs = true → Honest history → (tokens history).Nodup ∧ (reports history).Nodup) ∧
    (∀ nowNs request failure, (s.submit nowNs request).1 = .error failure →
      failure.request = request ∧ (s.submit nowNs request).2 = s) ∧
    (∀ id request, (id, request) ∈ submissions history →
      completions (story id history) = [] ∧ s.table.Holds id request ∨
        ∃ completion, completions (story id history) = [completion] ∧
          completion.bounce = request.buffer.bind (·.bounce)) ∧
    ∀ id deviceIndex device, s.table.Present id deviceIndex device →
      (policy.epochs = true → Honest history →
        device.inFlight = (outstanding id device.epoch history).length) ∧
      device.inFlight ≤ device.config.queueDepth := by
  have htracked := hrun.traced.tracked
  have hchronicle := htracked.chronicle
  refine ⟨fun id completion htake => ?_, fun hpolicy hhonest => ?_,
    fun _ _ _ => submit_eq_error, fun id request hmem => ?_,
    fun id deviceIndex device hpresent => ?_⟩
  · obtain ⟨index, slot, hslot, hheld, hended, rfl, hbounce⟩ := takeCompletion_eq_some htake
    have htold := hchronicle.told index slot hslot hheld
    refine ⟨htold.untaken, fun hpolicy hhonest command hcommand => ?_, slot.spec, ?_, hbounce⟩
    · obtain ⟨k, hk⟩ := mem_iff_getElem?.mp hcommand
      exact (htracked.settling hpolicy hhonest).slots index slot hslot hheld k command hk
        (.inr hended)
    · rw [← mem_submissions_story, htold.submitted]
      exact mem_singleton_self _
  · have haccounts := htracked.accounts hpolicy hhonest
    exact ⟨haccounts.tokens_nodup, haccounts.reports_nodup⟩
  · have hclosed := hchronicle.closed id
    rcases htracked.kept id request hmem with hholds | htaken
    · refine .inl ⟨?_, hholds⟩
      obtain ⟨i, slot, hi, hheld, rfl, -⟩ := hholds
      exact (hchronicle.told i slot hi hheld).untaken
    · obtain ⟨completion, hlist⟩ : ∃ completion, completions (story id history) = [completion] :=
        length_eq_one_iff.mp (Nat.le_antisymm hclosed.taken (length_pos_iff.mpr htaken))
      obtain ⟨request', hrequest', -, hbounce, -⟩ :=
        hclosed.completed completion (hlist ▸ mem_singleton_self _)
      obtain rfl := request_unique hclosed hmem hrequest'
      exact .inr ⟨completion, hlist, hbounce⟩
  · obtain ⟨hdevice, hthere, rfl⟩ := hpresent
    exact ⟨fun hpolicy hhonest => (htracked.accounts hpolicy hhonest).inFlight deviceIndex device
      hdevice hthere, (htracked.wf.deviceOk device (mem_of_getElem? hdevice)).depth⟩

theorem honest_of_take {history : List Event} (h : ∀ k < history.length,
    ∀ token ∈ reports ((history.drop k).take 1), token ∈ tokens (history.take k)) :
    Honest history := by
  rintro before token after rfl
  have hmem : token ∈ reports [.completed token] := mem_reports.mpr (mem_singleton_self _)
  have htoken := h before.length (by simp) token (by simpa using hmem)
  rw [take_left] at htoken
  exact mem_tokens.mp htoken

/-- A write that ended and was taken, and a flush that is out. -/
def takenOps : List Op :=
  fencedOps ++ [.takeCompletion (.fromParts 0 1), .dispatchOne firstDevice 0]

theorem memory_is_owned_write : ∃ completion device,
    completions (story (.fromParts 0 1) (execAll takenOps smallQueue).1) = [completion] ∧
      (execAll takenOps smallQueue).2.table.Present firstDevice 0 device ∧ device.inFlight = 1 ∧
      device.inFlight =
        (outstanding firstDevice device.epoch (execAll takenOps smallQueue).1).length := by
  obtain ⟨device, hdevice, hthere, hname, hone⟩ :
      ∃ device ∈ (execAll takenOps smallQueue).2.devices[0]?, device.present = true ∧
        firstDevice = .fromParts 0 device.generation ∧ device.inFlight = 1 := by
    decide +kernel
  have hallowed : AllowedAll ⟨false, true, false, false⟩ takenOps smallQueue := by
    decide +kernel
  have hhonest : Honest (execAll takenOps smallQueue).1 := honest_of_take (by decide +kernel)
  have hpresent : (execAll takenOps smallQueue).2.table.Present firstDevice 0 device :=
    ⟨hdevice, hthere, hname⟩
  have hmem : (BlockRequestId.fromParts 0 1, sectorWrite) ∈
      submissions (execAll takenOps smallQueue).1 := by
    decide +kernel
  have htaken : completions (story (.fromParts 0 1) (execAll takenOps smallQueue).1) ≠ [] := by
    decide +kernel
  obtain ⟨-, -, -, howned, hflight⟩ := memory_is_owned (run_execAll starts_smallQueue hallowed)
  obtain ⟨completion, honly, -⟩ := (howned _ _ hmem).resolve_left fun h => htaken h.1
  exact ⟨completion, device, honly, hpresent, hone, (hflight _ _ _ hpresent).1 rfl hhonest⟩

theorem honest_of_reports {history : List Event} (h : reports history = []) : Honest history := by
  rintro before token after rfl
  have hmem : token ∈ reports (before ++ .completed token :: after) :=
    mem_reports.mpr (mem_append_right _ mem_cons_self)
  rw [h] at hmem
  cases hmem

/-- A queue of one device, which is in this epoch. -/
def agedQueue (epoch : Nat) : AsyncBlockQueue :=
  let s := (exec (.registerDevice smallDevice) (fresh 1 1 .default)).2
  { s with devices := s.devices.map fun device => { device with epoch := epoch } }

theorem exec_resetDevice_agedQueue {epoch : Nat} (h : epoch < u32Max) :
    exec (.resetDevice firstDevice) (agedQueue epoch) =
      ([.advanced firstDevice], agedQueue (epoch + 1)) := by
  have hnext : checkedSuccU32 epoch = some (epoch + 1) := if_pos h
  obtain ⟨device, hdev⟩ : ∃ device, (agedQueue epoch).devices[0]? = some device := ⟨_, rfl⟩
  have hpres : (agedQueue epoch).table.Present firstDevice 0 device := by
    cases hdev
    exact ⟨rfl, rfl, rfl⟩
  have hone : (agedQueue epoch).devices.length = 1 := rfl
  have hidx := deviceIndex_of_present (hone ▸ by decide) hpres
  have hreset : (agedQueue epoch).resetDevice firstDevice = (.ok (), agedQueue (epoch + 1)) := by
    unfold resetDevice
    obtain rfl := some.inj hdev
    simp only [hidx, bind_some, hdev, map_some, hnext]
    with_unfolding_all rfl
  simp only [exec, hreset, advanceEvents]

theorem run_agedQueue {epoch : Nat} (h : epoch < u32Max) :
    ∃ past, Run .any past (agedQueue (epoch + 1)) ∧
      ∀ event ∈ past, event = .registered firstDevice ∨ event = .advanced firstDevice := by
  induction epoch with
  | zero =>
    refine ⟨[.registered firstDevice], ⟨_, ⟨1, 1, .default, none, none, rfl⟩,
      .single (.call (.registerDevice smallDevice) (allowed_any ..))⟩, fun event hmem => ?_⟩
    exact .inl (mem_singleton.mp hmem)
  | succ epoch ih =>
    obtain ⟨past, ⟨s0, hstarts, hrun⟩, hquiet⟩ := ih (Nat.lt_of_succ_lt h)
    have hstep := Step.call (.resetDevice firstDevice) (allowed_any (agedQueue (epoch + 1)) _)
    rw [exec_resetDevice_agedQueue h] at hstep
    refine ⟨_, ⟨s0, hstarts, hrun.tail hstep⟩, fun event hmem => ?_⟩
    exact (mem_append.mp hmem).elim (hquiet event) fun hnew => .inr (mem_singleton.mp hnew)

/-- A write is out when the queue is shut down by force. -/
def forcedOps : List Op := [.submit 0 sectorWrite, .dispatchOne firstDevice 0, .forceShutdown]

theorem takeCompletion_in_last_epoch : ∃ history s, Run .any history s ∧ Honest history ∧
    ∃ id completion command, (s.takeCompletion id).1 = some completion ∧
      command ∈ commands (story id history) ∧ ¬Settled history command.token := by
  obtain ⟨command, -, hevents, hid, hflush⟩ :
      ∃ command ∈ (execAll forcedOps (agedQueue u32Max)).1.getLast?.bind Event.command?,
        (execAll forcedOps (agedQueue u32Max)).1 =
          [.submitted (.fromParts 0 1) sectorWrite, .dispatched command] ∧
        command.token.requestId = .fromParts 0 1 ∧ command.token.shutdownFlush = false := by
    decide +kernel
  have htake : ((execAll forcedOps (agedQueue u32Max)).2.takeCompletion (.fromParts 0 1)).1.isSome =
      true := by
    decide +kernel
  obtain ⟨completion, htake⟩ := isSome_iff_exists.mp htake
  obtain ⟨past, ⟨s0, hstarts, hrun⟩, hquiet⟩ := run_agedQueue (show u32Max - 1 < u32Max by decide)
  rw [Nat.sub_add_cancel (show 1 ≤ u32Max by decide)] at hrun
  have hforced := hrun.trans (star_execAll (allowedAll_any forcedOps _))
  rw [hevents] at hforced
  refine ⟨_, _, ⟨s0, hstarts, hforced⟩, honest_of_reports ?_, _, completion, command, htake, ?_, ?_⟩
  · have hnone : reports past = [] := by
      refine filterMap_eq_nil_iff.mpr fun event hmem => ?_
      rcases hquiet event hmem with rfl | rfl <;> rfl
    unfold reports at hnone ⊢
    rw [filterMap_append, hnone]
    rfl
  · rw [← hid]
    exact mem_commands_story (mem_append_right _ (by simp)) hflush
  · -- nothing was heard after the command
    rintro ⟨before, other, after, heq, -, hsettled⟩
    rcases eq_nil_or_concat' after with rfl | ⟨rest, last, rfl⟩
    · rcases hsettled with hnone | hnone <;> cases hnone
    have hbefore := congrArg dropLast heq
    rw [dropLast_append_cons, ← cons_append, ← append_assoc, dropLast_concat] at hbefore
    have hmem : .dispatched other ∈ past ++ [.submitted (.fromParts 0 1) sectorWrite] := by
      rw [show [Event.submitted (.fromParts 0 1) sectorWrite] = dropLast
        [.submitted (.fromParts 0 1) sectorWrite, .dispatched command] from rfl, hbefore]
      exact mem_append_right _ mem_cons_self
    rcases mem_append.mp hmem with hpast | hnew
    · rcases hquiet _ hpast with hevent | hevent <;> cases hevent
    · cases mem_singleton.mp hnew

end AsyncBlockQueue

end Ginkgo.Kernel.AsyncBlock
