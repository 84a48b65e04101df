import Ginkgo.Kernel.AsyncBlock.Moves
import Ginkgo.Kernel.AsyncBlock.Split
import Mathlib.Data.List.Nodup

/-!
# The story of a request

What was heard of one request: that it was submitted, which of its commands were dispatched,
completed or cancelled, and that its completion was taken.  As long as a slot holds the request,
the slot agrees with the story.
-/

namespace Ginkgo.Kernel.AsyncBlock

open Ginkgo.Lib List RequestSlot

namespace Event

/-- The request that an event is about. -/
def request : Event → Option BlockRequestId
  | submitted id _ => some id
  | dispatched command => if command.token.shutdownFlush then none else some command.token.requestId
  | completed token => if token.shutdownFlush then none else some token.requestId
  | cancelling token => some token.requestId
  | taken completion => some completion.id
  | registered _ | rejected _ | advanced _ => none

def submission? : Event → Option (BlockRequestId × RequestSpec)
  | submitted id request => some (id, request)
  | _ => none

def command? : Event → Option DispatchCommand
  | dispatched command => if command.token.shutdownFlush then none else some command
  | _ => none

def accepted? : Event → Option DispatchToken
  | completed token => if token.shutdownFlush then none else some token
  | _ => none

def cancelled? : Event → Option DispatchToken
  | cancelling token => some token
  | _ => none

def completion? : Event → Option RequestCompletion
  | taken completion => some completion
  | _ => none

end Event

/-- The requests that were accepted, in order. -/
def submissions (history : List Event) : List (BlockRequestId × RequestSpec) :=
  history.filterMap Event.submission?

/-- The commands of requests that were dispatched, in order. -/
def commands (history : List Event) : List DispatchCommand := history.filterMap Event.command?

/-- The commands of requests whose completion was accepted. -/
def accepted (history : List Event) : List DispatchToken := history.filterMap Event.accepted?

/-- The commands that the driver was asked to cancel. -/
def cancelled (history : List Event) : List DispatchToken := history.filterMap Event.cancelled?

/-- The completions that were taken. -/
def completions (history : List Event) : List RequestCompletion :=
  history.filterMap Event.completion?

def story (id : BlockRequestId) (history : List Event) : List Event :=
  history.filter (·.request = some id)

section

variable {id : BlockRequestId} {event : Event} {token : DispatchToken}

variable (history events : List Event)

theorem submissions_append :
    submissions (history ++ events) = submissions history ++ submissions events :=
  filterMap_append

theorem commands_append :
    commands (history ++ events) = commands history ++ commands events :=
  filterMap_append

theorem accepted_append :
    accepted (history ++ events) = accepted history ++ accepted events :=
  filterMap_append

theorem cancelled_append :
    cancelled (history ++ events) = cancelled history ++ cancelled events :=
  filterMap_append

theorem completions_append :
    completions (history ++ events) = completions history ++ completions events :=
  filterMap_append

theorem commands_dispatched {command : DispatchCommand} (h : command.token.shutdownFlush = false) :
    commands [.dispatched command] = [command] := by
  simp [commands, Event.command?, h]

theorem accepted_completed (h : token.shutdownFlush = false) :
    accepted [.completed token] = [token] := by
  simp [accepted, Event.accepted?, h]

theorem story_append :
    story id (history ++ events) = story id history ++ story id events :=
  filter_append ..

theorem story_concat_of_eq (h : event.request = some id) :
    story id (history ++ [event]) = story id history ++ [event] := by
  simp [story, h]

theorem story_append_of_ne {history events : List Event}
    (h : ∀ event ∈ events, event.request ≠ some id) :
    story id (history ++ events) = story id history := by
  have hnone : events.filter (·.request = some id) = [] :=
    filter_eq_nil_iff.mpr fun event hmem => by simpa using h event hmem
  simp [story, hnone]

end

/-! ## What a move does to one slot -/

theorem request_dispatched {command : DispatchCommand} (h : command.token.shutdownFlush = false) :
    Event.request (.dispatched command) = some command.token.requestId :=
  if_neg (by rw [h]; exact nofun)

theorem request_completed (h : token.shutdownFlush = false) :
    Event.request (.completed token) = some token.requestId :=
  if_neg (by rw [h]; exact nofun)

/-- Nobody is live at a device whose requests have failed. -/
theorem gone_of_fail {id : BlockDeviceId} {out : RequestOutcome} {slots : List RequestSlot} :
    ∀ other ∈ slots.map fun slot =>
      if slot.device = id ∧ slot.isLive = true then slot.fail out else slot,
      other.isLive = true → other.device ≠ id := by
  intro other hmem hlive hdev
  obtain ⟨old, -, rfl⟩ := mem_map.mp hmem
  split at hlive
  · cases hlive
  · rename_i hstays
    rw [if_neg hstays] at hdev
    exact hstays ⟨hdev, hlive⟩

/-- What becomes of a slot that goes on holding its request, with what is heard of it. -/
inductive SlotStep (config : QueueConfig) (policy : Policy) (t t' : Table) (i : Nat)
    (slot : RequestSlot) : List Event → RequestSlot → Prop
  | sent {deviceIndex offset : Nat} {device : DeviceSlot} {command : DispatchCommand}
      (hdispatchable : t.Dispatchable slot) (hpresent : t.Present slot.device deviceIndex device)
      (hrequest : command.token.requestId = .fromParts i slot.generation)
      (hdevice : command.token.deviceId = slot.device)
      (hepoch : command.token.deviceEpoch = device.epoch)
      (hchild : command.token.childIndex = slot.nextChild)
      (hflush : command.token.shutdownFlush = false)
      (hoperation : command.operation = slot.operation)
      (hlba : command.lba = slot.lba + offset / sectorSize)
      (hslice : AsyncBlockQueue.childSlice config slot slot.nextChild =
        some (offset, command.byteLen, command.segments)) :
      SlotStep config policy t t' i slot [.dispatched command] (sentSlot slot command.token.serial)
  | answered {token : DispatchToken} {notified : Bool} {slot' : RequestSlot}
      (hheld : slot.isHeld = true) (hrequest : token.requestId = .fromParts i slot.generation)
      (hflush : token.shutdownFlush = false)
      (hchild : slot.children[token.childIndex]? = some (.inFlight token.serial notified))
      (hanswered : Answered token.childIndex slot slot') :
      SlotStep config policy t t' i slot [.completed token] slot'
  | aborted (outcome : RequestOutcome) (hlive : slot.isLive = true)
      (hpolicy : policy.fences = true → slot.operation.isFence = true → t.LastOf slot) :
      SlotStep config policy t t' i slot [] (slot.abort outcome)
  | notified {token : DispatchToken} {serial : Nat} (hheld : slot.isHeld = true)
      (hrequest : token.requestId = .fromParts i slot.generation)
      (hchild : slot.children[token.childIndex]? = some (.inFlight serial false)) :
      SlotStep config policy t t' i slot [.cancelling token]
        { slot with children := slot.children.set token.childIndex (.inFlight serial true) }
  | failed {events : List Event} (outcome : RequestOutcome) (hlive : slot.isLive = true)
      (hevents : events = [] ∧ policy.epochs = false ∨ events = [.advanced slot.device])
      (hgone : ∀ other ∈ t'.slots, other.isLive = true → other.device ≠ slot.device) :
      SlotStep config policy t t' i slot events (slot.fail outcome)

/-- What becomes of a slot, with what is heard of its request. -/
inductive SlotTurn (config : QueueConfig) (policy : Policy) (t t' : Table) (i : Nat)
    (slot : RequestSlot) : List Event → RequestSlot → Prop
  | same {events : List Event}
      (hevents : ∀ event ∈ events, ∀ generation, event.request ≠ some (.fromParts i generation)) :
      SlotTurn config policy t t' i slot events slot
  | submitted {deviceIndex childCount : Nat} {device : DeviceSlot} {request : RequestSpec}
      (hfree : slot.state = .free) (hpresent : t.Present request.device deviceIndex device)
      (hrunning : t.shutdown = .running) (hfits : Fits device.config.dma request) :
      SlotTurn config policy t t' i slot [.submitted (.fromParts i slot.generation) request]
        { AsyncBlockQueue.acceptedSlot request slot.generation device.nextSequence
          device.nextOrderingEpoch childCount with queuedEntry := true }
  | stepped {events : List Event} {slot' : RequestSlot}
      (hstep : SlotStep config policy t t' i slot events slot') :
      SlotTurn config policy t t' i slot events slot'
  | taken {outcome : RequestOutcome} (hterminal : slot.state = .terminal)
      (houtcome : slot.terminalOutcome = some outcome) :
      SlotTurn config policy t t' i slot [.taken {
          id := .fromParts i slot.generation
          outcome := outcome
          bytesCompleted := slot.bytesCompleted
          bounce := slot.buffer.bind (·.bounce) }] (takenSlot slot)

section

variable {config : QueueConfig} {policy : Policy} {t t' : Table} {i : Nat}
  {slot slot' : RequestSlot} {events : List Event}

theorem Move.slotTurn (hmove : Move config policy t events t') (hwf : t.Wf config)
    (hget : t'.slots[i]? = some slot') :
    ∃ slot, t.slots[i]? = some slot ∧ SlotTurn config policy t t' i slot events slot' := by
  have hnone : (∀ event ∈ events, event.request = none) → t.slots[i]? = some slot' →
      ∃ slot, t.slots[i]? = some slot ∧ SlotTurn config policy t t' i slot events slot' :=
    fun hevs hi => ⟨slot', hi, .same fun event hmem _ heq =>
      nomatch (hevs event hmem).symm.trans heq⟩
  -- one slot is set, and the event is about it
  have hset : ∀ {index : Nat} {old new : RequestSlot}, t.slots[index]? = some old →
      (t.slots.set index new)[i]? = some slot' →
      (∀ event ∈ events, event.request = some (.fromParts index old.generation)) →
      SlotTurn config policy t t' index old events new →
        ∃ slot, t.slots[i]? = some slot ∧ SlotTurn config policy t t' i slot events slot' := by
    intro index old new hold hget hevs hturn
    rcases (getElem?_set_iff hold new i slot').mp hget with ⟨rfl, rfl⟩ | ⟨hne, hi⟩
    · exact ⟨old, hold, hturn⟩
    · refine ⟨slot', hi, .same fun event hmem generation heq => hne ?_⟩
      rw [hevs event hmem] at heq
      exact (BlockRequestId.fromParts_inj (hwf.index_lt_of_slot hold) (hwf.index_lt_of_slot hi)
        (Option.some.inj heq)).1.symm
  cases hmove with
  | submit hslot hfree hdev hpres hname _ _ hrun hfits =>
    exact hset hslot hget (forall_mem_singleton.mpr rfl)
      (.submitted hfree ⟨hdev, hpres, hname⟩ hrun hfits)
  | dispatch hslot hdev hpres hname hdispatchable _ hslice hlba =>
    exact hset hslot hget (forall_mem_singleton.mpr rfl)
      (.stepped (.sent hdispatchable ⟨hdev, hpres, hname⟩ rfl rfl rfl rfl rfl rfl hlba hslice))
  | @complete _ _ _ _ token _ status hslot hheld hreq _ _ _ _ _ hflush hch =>
    refine hset hslot hget (forall_mem_singleton.mpr ?_) (.stepped (.answered hheld hreq
      hflush hch (answered_answeredSlot config token.childIndex status hheld)))
    rw [← hreq]
    exact request_completed hflush
  | abort out hslot hlive _ _ hpol =>
    exact hset hslot hget (forall_mem_nil _) (.stepped (.aborted out hlive hpol))
  | notify hslot hheld _ _ _ hch =>
    exact hset hslot hget (forall_mem_singleton.mpr rfl) (.stepped (.notified hheld rfl hch))
  | take hslot hterm hout =>
    exact hset hslot hget (forall_mem_singleton.mpr rfl) (.taken hterm hout)
  | flush _ _ _ _ _ _ _ _ _ _ hflush | completeFlush _ _ _ _ hflush =>
    exact hnone (forall_mem_singleton.mpr (if_pos hflush)) hget
  | @advance d device device' out _ _ _ hep =>
    rw [getElem?_map] at hget
    obtain ⟨slot, hslot, rfl⟩ := Option.map_eq_some_iff.mp hget
    refine ⟨slot, hslot, ?_⟩
    by_cases hfails : slot.device = .fromParts d device.generation ∧ slot.isLive = true
    · rw [if_pos hfails]
      refine .stepped (.failed out hfails.2 ?_ (by rw [hfails.1]; exact gone_of_fail))
      split
      · exact .inl ⟨rfl, (hep.resolve_left (by omega)).1⟩
      · exact .inr (by rw [hfails.1])
    · rw [if_neg hfails]
      refine .same fun event hmem _ heq => ?_
      split at hmem
      · cases hmem
      · rw [mem_singleton.mp hmem] at heq
        cases heq
  | register | reject => exact hnone (forall_mem_singleton.mpr rfl) hget
  | tune | begin | force => exact hnone (forall_mem_nil _) hget

theorem generation_takenSlot (slot : RequestSlot) : slot.generation < (takenSlot slot).generation ∨
      (takenSlot slot).generation = slot.generation ∧ (takenSlot slot).state = .retired := by
  unfold takenSlot
  split
  · rename_i generation hgen
    rw [(checkedSuccU32_some hgen).1]
    exact .inl (Nat.lt_succ_self _)
  · exact .inr ⟨rfl, rfl⟩

theorem isHeld_takenSlot (slot : RequestSlot) : (takenSlot slot).isHeld = false := by
  unfold takenSlot
  split <;> rfl

/-- The request stays, and is not brought back to life. -/
structure Goes (slot slot' : RequestSlot) : Prop extends SameRequest slot slot' where
  before : slot.isHeld = true
  after : slot'.isHeld = true
  live : slot'.isLive = true → slot.isLive = true

theorem SlotStep.goes (h : SlotStep config policy t t' i slot events slot') : Goes slot slot' := by
  cases h with
  | sent hdispatchable =>
    exact ⟨⟨rfl, rfl, rfl, rfl⟩, held_of_isLive hdispatchable.live, rfl,
      fun _ => hdispatchable.live⟩
  | answered hheld _ _ _ hanswered =>
    exact ⟨hanswered.toKin.sameRequest, hheld, hanswered.held.trans hheld, hanswered.live⟩
  | aborted out hlive =>
    have hages := ages_abort hlive out
    have hheld := held_of_isLive hlive
    exact ⟨hages.toKin.sameRequest, hheld, hages.held.trans hheld, hages.live⟩
  | notified hheld => exact ⟨⟨rfl, rfl, rfl, rfl⟩, hheld, hheld, fun h => h⟩
  | failed out hlive =>
    exact ⟨⟨rfl, rfl, rfl, rfl⟩, held_of_isLive hlive, rfl, nofun⟩

theorem SlotTurn.of_unsubmitted (h : SlotTurn config policy t t' i slot events slot')
    (hevs : submissions events = []) (hheld : slot'.isHeld = true) :
    slot.isHeld = true ∧ SameRequest slot slot' := by
  cases h with
  | same => exact ⟨hheld, .refl slot⟩
  | submitted => cases hevs
  | stepped hstep => exact ⟨hstep.goes.before, hstep.goes.toSameRequest⟩
  | taken =>
    rw [isHeld_takenSlot] at hheld
    cases hheld

variable (hmove : Move config policy t events t')
include hmove

theorem Move.live_cases (hwf : t.Wf config)
    (hget : t'.slots[i]? = some slot') (hlive : slot'.isLive = true) :
    (∃ slot, t.slots[i]? = some slot ∧ slot.isLive = true ∧ slot'.generation = slot.generation ∧
        slot'.spec = slot.spec) ∨
      t.shutdown = .running ∧ events = [.submitted (.fromParts i slot'.generation) slot'.spec] ∧
        ∃ j device, t.Present slot'.device j device ∧ Fits device.config.dma slot'.spec := by
  obtain ⟨slot, hslot, hturn⟩ := hmove.slotTurn hwf hget
  cases hturn with
  | same => exact .inl ⟨slot', hslot, hlive, rfl, rfl⟩
  | submitted _ hpres hrun hfits => exact .inr ⟨hrun, rfl, _, _, hpres, hfits⟩
  | stepped hstep =>
    exact .inl ⟨slot, hslot, hstep.goes.live hlive, hstep.goes.generation, hstep.goes.spec⟩
  | taken =>
    rw [takenSlot_isLive] at hlive
    cases hlive

theorem Move.length_slots : t'.slots.length = t.slots.length := by
  cases hmove <;> simp

theorem Move.slotTurn_of (hwf : t.Wf config) (hget : t.slots[i]? = some slot) :
    ∃ slot', t'.slots[i]? = some slot' ∧ SlotTurn config policy t t' i slot events slot' := by
  have hlt := lt_length hget
  rw [← hmove.length_slots] at hlt
  obtain ⟨old, hold, hturn⟩ := hmove.slotTurn hwf (getElem?_eq_getElem hlt)
  cases hget.symm.trans hold
  exact ⟨_, getElem?_eq_getElem hlt, hturn⟩

/-- Whatever is heard of a request is about a slot that changes. -/
theorem Move.event_slot {event : Event}
    (hmem : event ∈ events) {id : BlockRequestId} (hev : event.request = some id) :
    ∃ i slot, t.slots[i]? = some slot ∧ id = .fromParts i slot.generation := by
  have hnone : ∀ {other : Event} {P : Prop}, event ∈ [other] → other.request = none → P := by
    intro other P hin hother
    rw [mem_singleton.mp hin, hother] at hev
    cases hev
  have hsome : ∀ {other : Event} {name : BlockRequestId}, event ∈ [other] →
      other.request = some name → id = name := by
    intro other name hin hother
    rw [mem_singleton.mp hin, hother] at hev
    exact (Option.some.inj hev).symm
  cases hmove with
  | submit hslot | dispatch hslot | notify hslot | take hslot => exact ⟨_, _, hslot, hsome hmem rfl⟩
  | complete hslot _ hreq _ _ _ _ _ hflush =>
    exact ⟨_, _, hslot, (hsome hmem (request_completed hflush)).trans hreq⟩
  | flush _ _ _ _ _ _ _ _ _ _ hflush | completeFlush _ _ _ _ hflush =>
    exact hnone hmem (if_pos hflush)
  | register => exact hnone hmem rfl
  | reject => exact hnone hmem rfl
  | advance =>
    split at hmem
    · cases hmem
    · exact hnone hmem rfl
  | abort | tune | begin | force => cases hmem

end

/-- The driver was asked to cancel the command, or it is done. -/
def ChildState.isNotified : ChildState → Bool
  | inFlight _ notified => notified
  | done => true
  | pending => false

/-- The command is the one of this child. -/
structure Issued (config : QueueConfig) (index : Nat) (slot : RequestSlot) (child : Nat)
    (command : DispatchCommand) : Prop where
  requestId : command.token.requestId = .fromParts index slot.generation
  deviceId : command.token.deviceId = slot.device
  childIndex : command.token.childIndex = child
  flush : command.token.shutdownFlush = false
  operation : command.operation = slot.operation
  piece : ∀ buffer, slot.operation.transfersData = true → slot.buffer = some buffer →
    IsPiece config slot.spec buffer child command

structure Told (config : QueueConfig) (index : Nat) (slot : RequestSlot) (story : List Event) :
    Prop where
  submitted : submissions story = [(.fromParts index slot.generation, slot.spec)]
  count : (commands story).length = slot.nextChild
  issued : ∀ k command, (commands story)[k]? = some command → Issued config index slot k command
  serial : ∀ (k serial : Nat) (notified : Bool),
    slot.children[k]? = some (.inFlight serial notified) →
      ∃ command, (commands story)[k]? = some command ∧ command.token.serial = serial
  accepted_nodup : (accepted story).Nodup
  accepted_done : ∀ token ∈ accepted story, slot.children[token.childIndex]? = some .done
  cancelled_nodup : (cancelled story).Nodup
  cancelled_known : ∀ token ∈ cancelled story, ∃ child,
    slot.children[token.childIndex]? = some child ∧ child.isNotified = true
  untaken : completions story = []

variable {config : QueueConfig} {policy : Policy} {index : Nat} {slot slot' : RequestSlot}
  {events : List Event}

theorem Issued.of_kin {child : Nat} {command : DispatchCommand}
    (h : Issued config index slot child command) (hkin : Kin slot slot') :
    Issued config index slot' child command := by
  refine ⟨?_, h.deviceId.trans hkin.device.symm, h.childIndex, h.flush,
    h.operation.trans hkin.operation.symm, ?_⟩
  · rw [hkin.generation]
    exact h.requestId
  · have hbuf : slot'.buffer = slot.buffer := congrArg RequestSpec.buffer hkin.spec
    rw [hkin.operation, hbuf, hkin.spec]
    exact h.piece

theorem Told.age (h : Told config index slot events) (hages : Ages slot slot') :
    Told config index slot' events := by
  refine ⟨?_, h.count.trans hages.nextChild.symm,
    fun k command hk => (h.issued k command hk).of_kin hages.toKin, ?_, h.accepted_nodup, ?_,
    h.cancelled_nodup, ?_, h.untaken⟩
  · rw [hages.generation, hages.spec]
    exact h.submitted
  · rw [hages.children]
    exact h.serial
  · rw [hages.children]
    exact h.accepted_done
  · rw [hages.children]
    exact h.cancelled_known

/-- A transfer that is done has moved all its bytes. -/
theorem Shaped.reach_eq (hvalid : config.isValid = true) {request : RequestSpec} {childCount : Nat}
    (hshaped : Shaped config request childCount)
    (hxfer : request.operation.transfersData = true) {buffer : BlockBuffer}
    (hbuf : request.buffer = some buffer) : reach config buffer childCount = buffer.byteLen := by
  obtain ⟨buffer', hbuf', -, -, -, hcnt⟩ := hshaped.transfer hxfer
  cases hbuf.symm.trans hbuf'
  have hpos := (QueueConfig.childBytes_of_isValid hvalid).1
  have hmod := Nat.div_add_mod (buffer.byteLen + config.childBytes - 1) config.childBytes
  have hlt := Nat.mod_lt (buffer.byteLen + config.childBytes - 1) hpos
  rw [← hcnt, Nat.mul_comm] at hmod
  unfold reach
  omega

structure Closed (config : QueueConfig) (id : BlockRequestId) (story : List Event) : Prop where
  submitted : (submissions story).length ≤ 1
  accepted_nodup : (accepted story).Nodup
  cancelled_nodup : (cancelled story).Nodup
  taken : (completions story).length ≤ 1
  pieces : ∀ request buffer, (id, request) ∈ submissions story →
    request.operation.transfersData = true → request.buffer = some buffer →
      ∃ childCount, Shaped config request childCount ∧ (commands story).length ≤ childCount ∧
        ∀ k command, (commands story)[k]? = some command → IsPiece config request buffer k command
  completed : ∀ completion ∈ completions story, ∃ request, (id, request) ∈ submissions story ∧
    completion.id = id ∧ completion.bounce = request.buffer.bind (·.bounce) ∧
      (completion.outcome = .success → ∀ buffer, request.operation.transfersData = true →
        request.buffer = some buffer → completion.bytesCompleted = buffer.byteLen ∧
          reach config buffer (commands story).length = buffer.byteLen)

theorem Told.closed (h : Told config index slot events) (hok : SlotOk config slot)
    (hheld : slot.isHeld = true) :
    Closed config (.fromParts index slot.generation) events := by
  refine ⟨?_, h.accepted_nodup, h.cancelled_nodup, ?_, ?_, ?_⟩
  · rw [h.submitted]
    exact Nat.le_refl 1
  · rw [h.untaken]
    exact Nat.zero_le 1
  · intro request buffer hmem hxfer hbuf
    rw [h.submitted, mem_singleton] at hmem
    obtain rfl := (Prod.mk.inj hmem).2
    refine ⟨slot.childCount, hok.shaped hheld, ?_, fun k command hk => ?_⟩
    · rw [h.count]
      exact hok.range
    · exact (h.issued k command hk).piece buffer hxfer hbuf
  · rw [h.untaken]
    exact nofun

theorem SlotOk.bytes_of_success (hvalid : config.isValid = true) (h : SlotOk config slot)
    (hterm : slot.state = .terminal) (hsucc : slot.terminalOutcome = some .success)
    (hheld : slot.isHeld = true) {buffer : BlockBuffer}
    (hxfer : slot.operation.transfersData = true) (hbuf : slot.buffer = some buffer) :
    slot.bytesCompleted = buffer.byteLen ∧ reach config buffer slot.nextChild = buffer.byteLen := by
  obtain ⟨hpend, hnext, hzero⟩ := h.success hterm hsucc
  have hreach := (h.shaped hheld).reach_eq hvalid hxfer hbuf
  rw [← hnext] at hreach
  refine ⟨?_, hreach⟩
  rw [h.bytes hpend, doneBytes, map_congr_left, sum_childLen]
  · exact hreach
  · intro k hk
    rw [if_pos (h.done_of_idle hzero (mem_range.mp hk)), childLen, hbuf]

theorem nodup_concat {α : Type} {l : List α} {a : α} (h : l.Nodup) (hnot : a ∉ l) :
    (l ++ [a]).Nodup :=
  nodup_append.mpr ⟨h, nodup_cons.mpr ⟨nofun, nodup_nil⟩,
    fun _ hb _ hc heq => hnot (mem_singleton.mp hc ▸ heq ▸ hb)⟩

theorem told_submitted {request : RequestSpec} (generation seq orderingEpoch childCount : Nat) :
    Told config index { AsyncBlockQueue.acceptedSlot request generation seq orderingEpoch childCount
        with queuedEntry := true } [.submitted (.fromParts index generation) request] := by
  refine ⟨rfl, rfl, nofun, fun k serial notified hch => ?_, nodup_nil,
    forall_mem_nil _, nodup_nil, forall_mem_nil _, rfl⟩
  have hpend := eq_of_mem_replicate (mem_of_getElem? hch)
  cases hpend

section

variable (h : Told config index slot events) {serial : Nat}
include h

theorem Told.sent {command : DispatchCommand}
    (hissued : Issued config index slot slot.nextChild command)
    (hserial : command.token.serial = serial)
    (hch : slot.children[slot.nextChild]? = some .pending) :
    Told config index (sentSlot slot serial) (events ++ [.dispatched command]) := by
  have hcmds : commands (events ++ [.dispatched command]) = commands events ++ [command] := by
    rw [commands_append, commands_dispatched hissued.flush]
  have hset := getElem?_set_iff hch (.inFlight serial false)
  refine ⟨?_, ?_, fun k other hk => ?_, fun k serial' notified hk => ?_, ?_,
    fun token hmem => ?_, ?_,
    fun token hmem => ?_, ?_⟩
  · rw [submissions_append, h.submitted]
    rfl
  · rw [hcmds, length_append, h.count]
    rfl
  · rw [hcmds] at hk
    have hkin : Issued config index slot k other := by
      rcases Nat.lt_or_ge k (commands events).length with hlt | hge
      · rw [getElem?_append_left hlt] at hk
        exact h.issued k other hk
      have hlast := lt_length hk
      rw [length_append, length_singleton] at hlast
      obtain rfl : k = (commands events).length := by omega
      rw [getElem?_concat_length] at hk
      cases hk
      rw [h.count]
      exact hissued
    exact { hkin with }
  · rw [hcmds]
    rcases (hset k _).mp hk with ⟨rfl, heq⟩ | ⟨-, hold⟩
    · refine ⟨command, ?_, hserial.trans (ChildState.inFlight.inj heq).1.symm⟩
      rw [← h.count, getElem?_concat_length]
    · obtain ⟨other, hother, hsame⟩ := h.serial k serial' notified hold
      refine ⟨other, ?_, hsame⟩
      rw [getElem?_append_left (lt_length hother)]
      exact hother
  · rw [accepted_append]
    exact append_nil _ ▸ h.accepted_nodup
  · rw [accepted_append] at hmem
    have hdone := h.accepted_done token (append_nil (accepted events) ▸ hmem)
    refine (hset _ _).mpr (.inr ⟨fun heq => ?_, hdone⟩)
    rw [heq, hch] at hdone
    cases hdone
  · rw [cancelled_append]
    exact append_nil _ ▸ h.cancelled_nodup
  · rw [cancelled_append] at hmem
    obtain ⟨child, hold, hknown⟩ := h.cancelled_known token (append_nil (cancelled events) ▸ hmem)
    refine ⟨child, (hset _ _).mpr (.inr ⟨fun heq => ?_, hold⟩), hknown⟩
    rw [heq, hch] at hold
    cases hold
    cases hknown
  · rw [completions_append, h.untaken]
    rfl

theorem Told.answered
    {notified : Bool} (hch : slot.children[token.childIndex]? = some (.inFlight serial notified))
    (hflush : token.shutdownFlush = false) (hanswered : Answered token.childIndex slot slot') :
    Told config index slot' (events ++ [.completed token]) := by
  have hacc : accepted (events ++ [.completed token]) = accepted events ++ [token] := by
    rw [accepted_append, accepted_completed hflush]
  have hset := getElem?_set_iff hch ChildState.done
  have hcmds : commands (events ++ [.completed token]) = commands events := by
    rw [commands_append]
    exact append_nil _
  have hcanc : cancelled (events ++ [.completed token]) = cancelled events := by
    rw [cancelled_append]
    exact append_nil _
  refine ⟨?_, ?_, fun k other hk => ?_, fun k serial' notified' hk => ?_, ?_,
    fun other hmem => ?_, ?_,
    fun other hmem => ?_, ?_⟩
  · rw [submissions_append, h.submitted, hanswered.generation, hanswered.spec]
    rfl
  · rw [hcmds, h.count, hanswered.nextChild]
  · rw [hcmds] at hk
    exact (h.issued k other hk).of_kin hanswered.toKin
  · rw [hanswered.children] at hk
    rw [hcmds]
    rcases (hset k _).mp hk with ⟨-, heq⟩ | ⟨-, hold⟩
    · cases heq
    · exact h.serial k serial' notified' hold
  · rw [hacc]
    refine nodup_concat h.accepted_nodup fun hmem => ?_
    have hdone := h.accepted_done token hmem
    rw [hch] at hdone
    cases hdone
  · rw [hacc] at hmem
    rw [hanswered.children]
    rcases mem_append.mp hmem with hold | hnew
    · by_cases heq : other.childIndex = token.childIndex
      · exact (hset _ _).mpr (.inl ⟨heq, rfl⟩)
      · exact (hset _ _).mpr (.inr ⟨heq, h.accepted_done other hold⟩)
    · obtain rfl := mem_singleton.mp hnew
      exact (hset _ _).mpr (.inl ⟨rfl, rfl⟩)
  · rw [hcanc]
    exact h.cancelled_nodup
  · rw [hcanc] at hmem
    rw [hanswered.children]
    obtain ⟨child, hold, hknown⟩ := h.cancelled_known other hmem
    by_cases heq : other.childIndex = token.childIndex
    · exact ⟨.done, (hset _ _).mpr (.inl ⟨heq, rfl⟩), rfl⟩
    · exact ⟨child, (hset _ _).mpr (.inr ⟨heq, hold⟩), hknown⟩
  · rw [completions_append, h.untaken]
    rfl

theorem Told.notified (token : DispatchToken)
    (hch : slot.children[token.childIndex]? = some (.inFlight serial false)) :
    Told config index
      { slot with children := slot.children.set token.childIndex (.inFlight serial true) }
      (events ++ [.cancelling token]) := by
  have hset := getElem?_set_iff hch (ChildState.inFlight serial true)
  have hcanc : cancelled (events ++ [.cancelling token]) = cancelled events ++ [token] := by
    rw [cancelled_append]
    rfl
  have hcmds : commands (events ++ [.cancelling token]) = commands events := by
    rw [commands_append]
    exact append_nil _
  have hacc : accepted (events ++ [.cancelling token]) = accepted events := by
    rw [accepted_append]
    exact append_nil _
  refine ⟨?_, ?_, fun k other hk => ?_, fun k serial' notified' hk => ?_, ?_,
    fun other hmem => ?_, ?_,
    fun other hmem => ?_, ?_⟩
  · rw [submissions_append, h.submitted]
    rfl
  · rw [hcmds]
    exact h.count
  · rw [hcmds] at hk
    exact { h.issued k other hk with }
  · rw [hcmds]
    rcases (hset k _).mp hk with ⟨rfl, heq⟩ | ⟨-, hold⟩
    · obtain ⟨command, hcmd, hserial⟩ := h.serial _ serial false hch
      exact ⟨command, hcmd, hserial.trans (ChildState.inFlight.inj heq).1.symm⟩
    · exact h.serial k serial' notified' hold
  · rw [hacc]
    exact h.accepted_nodup
  · rw [hacc] at hmem
    have hdone := h.accepted_done other hmem
    refine (hset _ _).mpr (.inr ⟨fun heq => ?_, hdone⟩)
    rw [heq, hch] at hdone
    cases hdone
  · rw [hcanc]
    refine nodup_concat h.cancelled_nodup fun hmem => ?_
    obtain ⟨child, hold, hknown⟩ := h.cancelled_known token hmem
    cases hch.symm.trans hold
    cases hknown
  · rw [hcanc] at hmem
    by_cases heq : other.childIndex = token.childIndex
    · exact ⟨.inFlight serial true, (hset _ _).mpr (.inl ⟨heq, rfl⟩), rfl⟩
    rcases mem_append.mp hmem with hold | hnew
    · obtain ⟨child, hold, hknown⟩ := h.cancelled_known other hold
      exact ⟨child, (hset _ _).mpr (.inr ⟨heq, hold⟩), hknown⟩
    · obtain rfl := mem_singleton.mp hnew
      exact absurd rfl heq
  · rw [completions_append, h.untaken]
    rfl

theorem Told.taken (hvalid : config.isValid = true)
    (hok : SlotOk config slot) (hterm : slot.state = .terminal) {out : RequestOutcome}
    (hout : slot.terminalOutcome = some out) :
    Closed config (.fromParts index slot.generation) (events ++ [.taken {
      id := .fromParts index slot.generation
      outcome := out
      bytesCompleted := slot.bytesCompleted
      bounce := slot.buffer.bind (·.bounce) }]) := by
  have hheld := (of_terminal hterm).1
  have hclosed := h.closed hok hheld
  generalize hcompl : ({ id := _, outcome := _, bytesCompleted := _, bounce := _ } :
    RequestCompletion) = completion
  have hsubms : submissions (events ++ [.taken completion]) = submissions events := by
    rw [submissions_append]
    exact append_nil _
  have hcmds : commands (events ++ [.taken completion]) = commands events := by
    rw [commands_append]
    exact append_nil _
  refine ⟨by rw [hsubms]; exact hclosed.submitted, ?_, ?_, ?_, ?_, ?_⟩
  · rw [accepted_append]
    exact (append_nil (accepted events)).symm ▸ h.accepted_nodup
  · rw [cancelled_append]
    exact (append_nil (cancelled events)).symm ▸ h.cancelled_nodup
  · rw [completions_append, h.untaken]
    exact Nat.le_refl 1
  · rw [hsubms, hcmds]
    exact hclosed.pieces
  · intro other hmem
    rw [completions_append, h.untaken] at hmem
    obtain rfl := mem_singleton.mp hmem
    rw [hsubms, hcmds, h.submitted]
    refine ⟨slot.spec, mem_cons_self, by rw [← hcompl], by rw [← hcompl]; rfl, ?_⟩
    intro hsucc buffer hxfer hbuf
    rw [← hcompl] at hsucc ⊢
    have hsucc : out = .success := hsucc
    rw [hsucc] at hout
    rw [h.count]
    exact hok.bytes_of_success hvalid hterm hout hheld hxfer hbuf

end

structure Chronicle (config : QueueConfig) (t : Table) (history : List Event) : Prop where
  fresh : ∀ i slot, t.slots[i]? = some slot → ∀ generation,
    slot.generation < generation ∨ generation = slot.generation ∧ slot.state = .free →
      story (.fromParts i generation) history = []
  told : ∀ i slot, t.slots[i]? = some slot → slot.isHeld = true →
    Told config i slot (story (.fromParts i slot.generation) history)
  closed : ∀ id, Closed config id (story id history)

variable {t t' : Table} {history : List Event}

theorem closed_nil (config : QueueConfig) (id : BlockRequestId) : Closed config id [] :=
  ⟨Nat.zero_le 1, nodup_nil, nodup_nil, Nat.zero_le 1,
    fun _ _ hmem => absurd hmem not_mem_nil, forall_mem_nil _⟩

/-- A name that is new to the slot was new before, and nothing is heard of it. -/
theorem SlotTurn.later {i generation : Nat} (h : SlotTurn config policy t t' i slot events slot')
    (hnew : slot'.generation < generation ∨ generation = slot'.generation ∧ slot'.state = .free) :
    slot' = slot ∧ (∀ event ∈ events, event.request ≠ some (.fromParts i generation)) ∨
      slot.generation < generation := by
  cases h with
  | same hevs => exact .inl ⟨rfl, fun event hmem => hevs event hmem generation⟩
  | submitted => exact .inr (hnew.resolve_right nofun)
  | stepped hstep =>
    rw [← hstep.goes.generation]
    exact .inr (hnew.resolve_right fun h =>
      not_free_of_isHeld hstep.goes.after h.2)
  | taken =>
    rcases generation_takenSlot slot with hlt | ⟨heq, hret⟩
    · omega
    · rw [heq, hret] at hnew
      exact .inr (hnew.resolve_right nofun)

/-- What is heard of a request that stays is known to its slot. -/
theorem SlotTurn.told {i : Nat} (hturn : SlotTurn config policy t t' i slot events slot')
    (hvalid : config.isValid = true) (hwf : t.Wf config) (h : Chronicle config t history)
    (hslot : t.slots[i]? = some slot) (hheld : slot'.isHeld = true) :
    Told config i slot' (story (.fromParts i slot'.generation) (history ++ events)) := by
  cases hturn with
  | same hevs =>
    rw [story_append_of_ne fun event hmem => hevs event hmem _]
    exact h.told i slot hslot hheld
  | submitted hfree =>
    change Told config i _ (story (.fromParts i slot.generation) _)
    rw [story_concat_of_eq history rfl, h.fresh i slot hslot _ (.inr ⟨rfl, hfree⟩)]
    exact told_submitted _ _ _ _
  | stepped hstep =>
    cases hstep with
    | @sent deviceIndex offset device command hdispatchable _ hreq hdev _ hch hflush hop
        hlba hslice =>
      have hok := hwf.slotOk slot (mem_of_getElem? hslot)
      have hslotHeld := held_of_isLive hdispatchable.live
      have hlt := Nat.lt_of_lt_of_le hdispatchable.next hok.bounded
      have hpend := (hok.started slot.nextChild).mpr ⟨hlt, Nat.le_refl _⟩
      obtain ⟨segments, hslice', -, hbytes⟩ := childSlice_eq_some hvalid (hok.shaped hslotHeld)
        hdispatchable.next
      obtain ⟨rfl, hlen, hsegs⟩ : offset = _ ∧ command.byteLen = _ ∧
          command.segments = segments := by
        simpa using hslice.symm.trans hslice'
      change Told config i _ (story (.fromParts i slot.generation) _)
      rw [story_concat_of_eq history (hreq ▸ request_dispatched hflush)]
      refine (h.told i slot hslot hslotHeld).sent ⟨hreq, hdev, hch, hflush, hop,
        fun buffer hxfer hbuf => ⟨hlba, ?_, ?_⟩⟩ rfl hpend
      · rw [hlen]
        unfold childLen
        rw [hbuf]
      · rw [hsegs, hlen]
        exact hbytes buffer hxfer hbuf
    | answered hslotHeld hreq hflush hch hanswered =>
      rw [hanswered.generation, story_concat_of_eq history (hreq ▸ request_completed hflush)]
      exact (h.told i slot hslot hslotHeld).answered hch hflush hanswered
    | aborted outcome hlive =>
      have hages := ages_abort hlive outcome
      rw [hages.generation, append_nil]
      exact (h.told i slot hslot (held_of_isLive hlive)).age hages
    | notified hslotHeld hreq hch =>
      rw [story_concat_of_eq history (hreq ▸ rfl)]
      exact (h.told i slot hslot hslotHeld).notified _ hch
    | failed outcome hlive hevs =>
      change Told config i _ (story (.fromParts i slot.generation) _)
      rw [story_append_of_ne fun event hmem heq => ?_]
      · exact (h.told i slot hslot (held_of_isLive hlive)).age (ages_fail hlive outcome)
      · rcases hevs with ⟨rfl, -⟩ | rfl
        · cases hmem
        · rw [mem_singleton.mp hmem] at heq
          cases heq
  | taken =>
    rw [isHeld_takenSlot] at hheld
    cases hheld

/-- A slot of which something is heard keeps its request, or has it taken. -/
theorem Move.heard (hmove : Move config policy t events t') (hwf : t.Wf config) {event : Event}
    {id : BlockRequestId} (hmem : event ∈ events) (hev : event.request = some id) :
    ∃ i slot slot', t.slots[i]? = some slot ∧ t'.slots[i]? = some slot' ∧
      id = .fromParts i slot.generation ∧
      (slot'.isHeld = true ∧ slot'.generation = slot.generation ∨
        ∃ out, slot.state = .terminal ∧ slot.terminalOutcome = some out ∧ events = [.taken {
            id := .fromParts i slot.generation
            outcome := out
            bytesCompleted := slot.bytesCompleted
            bounce := slot.buffer.bind (·.bounce) }]) := by
  obtain ⟨i, slot, hslot, rfl⟩ := hmove.event_slot hmem hev
  obtain ⟨slot', hslot', hturn⟩ := hmove.slotTurn_of hwf hslot
  refine ⟨i, slot, slot', hslot, hslot', rfl, ?_⟩
  cases hturn with
  | same hevs => exact absurd hev (hevs event hmem _)
  | submitted => exact .inl ⟨rfl, rfl⟩
  | stepped hstep => exact .inl ⟨hstep.goes.after, hstep.goes.generation⟩
  | taken hterm hout => exact .inr ⟨_, hterm, hout, rfl⟩

theorem Move.chronicle (hmove : Move config policy t events t') (hvalid : config.isValid = true)
    (hwf : t.Wf config) (h : Chronicle config t history) :
    Chronicle config t' (history ++ events) := by
  have htold : ∀ i slot', t'.slots[i]? = some slot' → slot'.isHeld = true →
      Told config i slot' (story (.fromParts i slot'.generation) (history ++ events)) := by
    intro i slot' hi hheld
    obtain ⟨slot, hslot, hturn⟩ := hmove.slotTurn hwf hi
    exact hturn.told hvalid hwf h hslot hheld
  refine ⟨fun i slot' hi generation hnew => ?_, htold, fun id => ?_⟩
  · obtain ⟨slot, hslot, hturn⟩ := hmove.slotTurn hwf hi
    rcases hturn.later hnew with ⟨rfl, hevs⟩ | hlater
    · rw [story_append_of_ne hevs]
      exact h.fresh i slot' hslot generation hnew
    rw [story_append_of_ne fun event hmem heq => ?_]
    · exact h.fresh i slot hslot generation (.inl hlater)
    · obtain ⟨j, other, hother, hname⟩ := hmove.event_slot hmem heq
      obtain ⟨rfl, rfl⟩ := BlockRequestId.fromParts_inj (hwf.index_lt_of_slot hslot)
        (hwf.index_lt_of_slot hother) hname
      cases hslot.symm.trans hother
      exact Nat.lt_irrefl _ hlater
  · by_cases hheard : ∃ event ∈ events, event.request = some id
    · obtain ⟨event, hmem, hev⟩ := hheard
      obtain ⟨i, slot, slot', hslot, hslot', rfl, ⟨hheld, hgen⟩ |
        ⟨out, hterm, hout, rfl⟩⟩ := hmove.heard hwf hmem hev
      · rw [← hgen]
        exact (htold i slot' hslot' hheld).closed
          ((hmove.wf hwf).slotOk slot' (mem_of_getElem? hslot')) hheld
      · rw [story_concat_of_eq history rfl]
        exact (h.told i slot hslot (of_terminal hterm).1).taken hvalid
          (hwf.slotOk slot (mem_of_getElem? hslot)) hterm hout
    · rw [story_append_of_ne fun event hmem heq => hheard ⟨event, hmem, heq⟩]
      exact h.closed id

end Ginkgo.Kernel.AsyncBlock
