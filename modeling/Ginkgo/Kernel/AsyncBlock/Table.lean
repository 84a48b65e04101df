import Ginkgo.Kernel.AsyncBlock
import Ginkgo.Lib.Transition

/-!
# The table of requests and devices

What the calls of the block queue do to its slots and devices, without the queues: a request
is submitted, its commands are dispatched and completed, it is aborted or fails with its
device, and in the end its completion is taken.  Every call is a run of such moves.
-/

namespace Ginkgo.Kernel.AsyncBlock

open Ginkgo.Lib

structure Table where
  slots : List RequestSlot
  devices : List DeviceSlot
  shutdown : ShutdownState

namespace AsyncBlockQueue

variable (s : AsyncBlockQueue)

def table : Table := ⟨s.slots, s.devices, s.shutdown⟩

@[simp] theorem table_slots : s.table.slots = s.slots := rfl

@[simp] theorem table_devices : s.table.devices = s.devices := rfl

@[simp] theorem table_shutdown : s.table.shutdown = s.shutdown := rfl

end AsyncBlockQueue

/-- What the callers and the driver see. -/
inductive Event
  | registered (device : BlockDeviceId)
  | submitted (id : BlockRequestId) (request : RequestSpec)
  | rejected (failure : SubmitFailure)
  | dispatched (command : DispatchCommand)
  | completed (token : DispatchToken)
  | cancelling (token : DispatchToken)
  | taken (completion : RequestCompletion)
  | advanced (device : BlockDeviceId)
  deriving DecidableEq

/-! ## What becomes of a slot -/

namespace RequestSlot

/-- The request that the slot was given. -/
def spec (slot : RequestSlot) : RequestSpec where
  device := slot.device
  operation := slot.operation
  lba := slot.lba
  buffer := slot.buffer
  priority := slot.priority
  deadlineNs := slot.deadlineNs

/-- The slot is named: it holds a request that was not taken yet. -/
def isHeld (slot : RequestSlot) : Bool := slot.state ≠ .free && slot.state ≠ .retired

def terminate (outcome : RequestOutcome) (slot : RequestSlot) : RequestSlot :=
  { slot with state := .terminal, terminalOutcome := some outcome, queuedEntry := false }

def abort (outcome : RequestOutcome) (slot : RequestSlot) : RequestSlot :=
  let slot := { slot with pendingOutcome := some outcome, queuedEntry := false }
  if slot.inFlight = 0 then slot.terminate outcome else slot

/-- The device has lost the commands of the slot. -/
def fail (outcome : RequestOutcome) (slot : RequestSlot) : RequestSlot :=
  let terminal := slot.pendingOutcome.getD outcome
  ({ slot with inFlight := 0, pendingOutcome := some terminal }).terminate terminal

/-- The slot after a command is complete: terminal if it was the last one. -/
def finish (slot : RequestSlot) : RequestSlot :=
  if slot.state ≠ .terminal ∧ slot.inFlight = 0 ∧
      (slot.pendingOutcome.isSome ∨ slot.nextChild = slot.childCount) then
    slot.terminate (slot.pendingOutcome.getD .success)
  else slot

end RequestSlot

/-- A slot with one more command out. -/
def sentSlot (slot : RequestSlot) (serial : Nat) : RequestSlot :=
  { AsyncBlockQueue.dispatchedSlot slot serial with
    queuedEntry := slot.nextChild + 1 < slot.childCount }

/-- A slot with one command less out. -/
def answeredSlot (config : QueueConfig) (child : Nat) (status : HardwareStatus)
    (slot : RequestSlot) : RequestSlot :=
  let slot' := AsyncBlockQueue.completedSlot config child status slot
  ({ slot' with queuedEntry := slot'.queuedEntry && slot'.pendingOutcome.isNone }).finish

def takenSlot (slot : RequestSlot) : RequestSlot :=
  match checkedSuccU32 slot.generation with
  | some generation => .vacant generation
  | none => { RequestSlot.vacant slot.generation with state := .retired }

/-! ## Moves -/

/-- No earlier request of the device is live. -/
def Table.LastOf (t : Table) (slot : RequestSlot) : Prop :=
  ∀ other ∈ t.slots, other.device = slot.device → other.sequence < slot.sequence →
    other.isLive = false

/-- No fence is live that the request comes after. -/
def Table.Unfenced (t : Table) (slot : RequestSlot) : Prop :=
  ∀ other ∈ t.slots, other.device = slot.device → other.orderingEpoch < slot.orderingEpoch →
    other.operation.isFence = true → other.isLive = false

/-- The request may have its next command dispatched. -/
structure Table.Dispatchable (t : Table) (slot : RequestSlot) : Prop where
  live : slot.isLive = true
  pendingOutcome : slot.pendingOutcome = none
  next : slot.nextChild < slot.childCount
  fence : slot.operation.isFence = true → t.LastOf slot
  data : slot.operation.isFence = false → t.Unfenced slot

/-- What a validated request looks like. -/
structure Shaped (config : QueueConfig) (request : RequestSpec) (childCount : Nat) : Prop where
  transfer : request.operation.transfersData = true → ∃ buffer, request.buffer = some buffer ∧
    buffer.byteLen % sectorSize = 0 ∧ buffer.byteLen ≤ config.maxRequestBytes ∧
    request.lba + buffer.byteLen / sectorSize ≤ wordMax ∧
    childCount = (buffer.byteLen + config.childBytes - 1) / config.childBytes
  fence : request.operation.transfersData = false →
    request.buffer = none ∧ request.lba = 0 ∧ childCount = 1
  bounded : childCount ≤ maxChildren

/-- The memory of the request is such as the device can reach. -/
def Fits (dma : DmaConstraints) (request : RequestSpec) : Prop :=
  request.operation.transfersData = true → ∀ buffer, request.buffer = some buffer →
    buffer.validateFor dma = .ok ()

/-- The device without what only the scheduler looks at. -/
structure SameDevice (device device' : DeviceSlot) : Prop where
  generation : device'.generation = device.generation
  epoch : device'.epoch = device.epoch
  everRegistered : device'.everRegistered = device.everRegistered
  present : device'.present = device.present
  config : device'.config = device.config
  inFlight : device'.inFlight = device.inFlight
  nextSequence : device'.nextSequence = device.nextSequence
  nextOrderingEpoch : device'.nextOrderingEpoch = device.nextOrderingEpoch
  nonBackgroundDispatches : device'.nonBackgroundDispatches = device.nonBackgroundDispatches
  shutdownFlush : device'.shutdownFlush = device.shutdownFlush

/-- What is asked of a run beyond the calls themselves. -/
structure Policy where
  /-- No fence is aborted while an earlier request is live. -/
  fences : Bool
  /-- Whatever stops a device changes its epoch. -/
  epochs : Bool
  /-- A device that cannot flush is not registered while the queue quiesces. -/
  flushes : Bool
  /-- No device is registered or reset once the queue is drained. -/
  drains : Bool

def Policy.any : Policy := ⟨false, false, false, false⟩

/-- The device has a shutdown flush to come. -/
def DeviceSlot.owesFlush (device : DeviceSlot) : Bool :=
  device.present &&
    match device.shutdownFlush with
    | .pending | .inFlight _ => true
    | .none | .done | .failed => false

/-- Nothing is left to do before the shutdown is complete. -/
structure Table.Idle (t : Table) : Prop where
  requests : ∀ slot ∈ t.slots, slot.isLive = false
  flushes : ∀ device ∈ t.devices, device.owesFlush = false

inductive Move (config : QueueConfig) (policy : Policy) : Table → List Event → Table → Prop
  | register {t : Table} {index : Nat} {device device' : DeviceSlot}
      (hdevice : t.devices[index]? = some device) (habsent : device.present = false)
      (hgeneration : device.everRegistered = false ∧ device'.generation = device.generation ∨
        device'.generation = device.generation + 1)
      (hpresent : device'.present = true) (hever : device'.everRegistered = true)
      (hepoch : device'.epoch = 1) (hinFlight : device'.inFlight = 0)
      (hsequence : device'.nextSequence = 1) (hordering : device'.nextOrderingEpoch = 1)
      (hdepth : 0 < device'.config.queueDepth)
      (hflush : t.shutdown ≠ .quiescing ∧ device'.shutdownFlush = .none ∨
        t.shutdown = .quiescing ∧ device'.shutdownFlush = .pending)
      (hflushes : policy.flushes = true → t.shutdown = .quiescing →
        device'.config.supportsFlush = true)
      (hdrains : policy.drains = true → t.shutdown ≠ .drained) :
      Move config policy t [.registered (.fromParts index device'.generation)]
        { t with devices := t.devices.set index device' }
  | submit {t : Table} {index deviceIndex childCount : Nat} {slot : RequestSlot}
      {device : DeviceSlot} {request : RequestSpec}
      (hslot : t.slots[index]? = some slot) (hfree : slot.state = .free)
      (hdevice : t.devices[deviceIndex]? = some device) (hpresent : device.present = true)
      (hname : request.device = .fromParts deviceIndex device.generation)
      (hshaped : Shaped config request childCount) (hpositive : 0 < childCount)
      (hrunning : t.shutdown = .running) (hfits : Fits device.config.dma request) :
      Move config policy t [.submitted (.fromParts index slot.generation) request] { t with
          slots := t.slots.set index { AsyncBlockQueue.acceptedSlot request slot.generation
            device.nextSequence device.nextOrderingEpoch childCount with queuedEntry := true }
          devices := t.devices.set deviceIndex { device with
            nextSequence := device.nextSequence + 1
            nextOrderingEpoch :=
              device.nextOrderingEpoch + if request.operation.isFence then 1 else 0 } }
  | reject {t : Table} (failure : SubmitFailure) : Move config policy t [.rejected failure] t
  | dispatch {t : Table} {index deviceIndex offset byteLen lba serial : Nat} {slot : RequestSlot}
      {device device' : DeviceSlot} {segments : List DmaSegment}
      (hslot : t.slots[index]? = some slot) (hdevice : t.devices[deviceIndex]? = some device)
      (hpresent : device.present = true)
      (hname : slot.device = .fromParts deviceIndex device.generation)
      (hdispatchable : t.Dispatchable slot) (hdepth : device.inFlight < device.config.queueDepth)
      (hslice : AsyncBlockQueue.childSlice config slot slot.nextChild =
        some (offset, byteLen, segments))
      (hlba : lba = slot.lba + offset / sectorSize)
      (hsame : SameDevice (AsyncBlockQueue.dispatchedDevice device slot.priority) device') :
      Move config policy t [.dispatched {
          token := {
            requestId := .fromParts index slot.generation
            deviceId := slot.device
            deviceEpoch := device.epoch
            childIndex := slot.nextChild
            serial := serial
            shutdownFlush := false }
          operation := slot.operation
          lba := lba
          byteLen := byteLen
          priority := slot.priority
          orderingEpoch := slot.orderingEpoch
          segments := segments }]
        { t with
          slots := t.slots.set index (sentSlot slot serial)
          devices := t.devices.set deviceIndex device' }
  | flush {t : Table} {deviceIndex : Nat} {device device' : DeviceSlot} {command : DispatchCommand}
      (hdevice : t.devices[deviceIndex]? = some device) (hpresent : device.present = true)
      (hquiescing : t.shutdown = .quiescing) (hpending : device.shutdownFlush = .pending)
      (hidle : device.inFlight = 0) (hdepth : device.inFlight < device.config.queueDepth)
      (hquiet : ∀ slot ∈ t.slots, slot.device.index = some deviceIndex → slot.isLive = false)
      (hrequest : command.token.requestId = .invalid)
      (hname : command.token.deviceId = .fromParts deviceIndex device.generation)
      (hepoch : command.token.deviceEpoch = device.epoch)
      (hflush : command.token.shutdownFlush = true)
      (hsame : SameDevice { device with
        inFlight := 1, shutdownFlush := .inFlight command.token.serial } device') :
      Move config policy t [.dispatched command]
        { t with devices := t.devices.set deviceIndex device' }
  | complete {t : Table} {index deviceIndex : Nat} {slot : RequestSlot} {device : DeviceSlot}
      {token : DispatchToken} {notified : Bool} {status : HardwareStatus}
      (hslot : t.slots[index]? = some slot) (hheld : slot.isHeld = true)
      (hrequest : token.requestId = .fromParts index slot.generation)
      (hdevice : t.devices[deviceIndex]? = some device) (hpresent : device.present = true)
      (hname : token.deviceId = .fromParts deviceIndex device.generation)
      (hslotDevice : slot.device = token.deviceId) (hepoch : token.deviceEpoch = device.epoch)
      (hflush : token.shutdownFlush = false)
      (hchild : slot.children[token.childIndex]? = some (.inFlight token.serial notified)) :
      Move config policy t [.completed token] { t with
          slots := t.slots.set index (answeredSlot config token.childIndex status slot)
          devices := t.devices.set deviceIndex { device with inFlight := device.inFlight - 1 } }
  | completeFlush {t : Table} {deviceIndex : Nat} {device : DeviceSlot} {token : DispatchToken}
      {flush : ShutdownFlushState}
      (hdevice : t.devices[deviceIndex]? = some device) (hpresent : device.present = true)
      (hname : token.deviceId = .fromParts deviceIndex device.generation)
      (hepoch : token.deviceEpoch = device.epoch) (hflush : token.shutdownFlush = true)
      (hinFlight : device.shutdownFlush = .inFlight token.serial)
      (hdone : flush = .done ∨ flush = .failed) :
      Move config policy t [.completed token] { t with
          devices := t.devices.set deviceIndex { device with
            inFlight := device.inFlight - 1, shutdownFlush := flush } }
  | abort {t : Table} {index : Nat} {slot : RequestSlot} (outcome : RequestOutcome)
      (hslot : t.slots[index]? = some slot) (hlive : slot.isLive = true)
      (hnone : slot.pendingOutcome = none) (houtcome : outcome ≠ .success)
      (hpolicy : policy.fences = true → slot.operation.isFence = true → t.LastOf slot) :
      Move config policy t [] { t with slots := t.slots.set index (slot.abort outcome) }
  | notify {t : Table} {index deviceIndex : Nat} {slot : RequestSlot} {device : DeviceSlot}
      {child serial : Nat} (hslot : t.slots[index]? = some slot) (hheld : slot.isHeld = true)
      (hdevice : t.devices[deviceIndex]? = some device) (hpresent : device.present = true)
      (hname : slot.device = .fromParts deviceIndex device.generation)
      (hchild : slot.children[child]? = some (.inFlight serial false)) :
      Move config policy t [.cancelling {
          requestId := .fromParts index slot.generation
          deviceId := slot.device
          deviceEpoch := device.epoch
          childIndex := child
          serial := serial
          shutdownFlush := false }]
        { t with
          slots := t.slots.set index
            { slot with children := slot.children.set child (.inFlight serial true) } }
  | take {t : Table} {index : Nat} {slot : RequestSlot} {outcome : RequestOutcome}
      (hslot : t.slots[index]? = some slot) (hterminal : slot.state = .terminal)
      (houtcome : slot.terminalOutcome = some outcome) :
      Move config policy t [.taken {
          id := .fromParts index slot.generation
          outcome := outcome
          bytesCompleted := slot.bytesCompleted
          bounce := slot.buffer.bind (·.bounce) }]
        { t with slots := t.slots.set index (takenSlot slot) }
  | advance {t : Table} {deviceIndex : Nat} {device device' : DeviceSlot}
      (outcome : RequestOutcome) (houtcome : outcome ≠ .success)
      (hdevice : t.devices[deviceIndex]? = some device) (hpresent : device.present = true)
      (hepoch : device'.epoch = device.epoch + 1 ∨
        policy.epochs = false ∧ device'.epoch = device.epoch) (hbound : device'.epoch ≤ u32Max)
      (hgeneration : device'.generation = device.generation)
      (hever : device'.everRegistered = device.everRegistered)
      (hconfig : device'.config = device.config) (hinFlight : device'.inFlight = 0)
      (hsequence : device'.nextSequence = device.nextSequence)
      (hordering : device'.nextOrderingEpoch = device.nextOrderingEpoch)
      (hcounter : device'.nonBackgroundDispatches = device.nonBackgroundDispatches)
      (hflush : device'.shutdownFlush = .failed ∨
        device'.shutdownFlush = .none ∧ t.shutdown ≠ .quiescing ∧
          (policy.drains = true → t.shutdown ≠ .drained)) :
      Move config policy t (if device'.epoch = device.epoch then []
          else [.advanced (.fromParts deviceIndex device.generation)])
        { t with
          slots := t.slots.map fun slot =>
            if slot.device = .fromParts deviceIndex device.generation ∧ slot.isLive then
              slot.fail outcome else slot
          devices := t.devices.set deviceIndex device' }
  | tune {t : Table} {devices : List DeviceSlot} {shutdown : ShutdownState}
      (hdevices : List.Forall₂ SameDevice t.devices devices)
      (hshutdown : shutdown = t.shutdown ∨ t.shutdown = .quiescing ∧ shutdown = .drained ∧ t.Idle) :
      Move config policy t [] { t with devices := devices, shutdown := shutdown }
  | begin {t : Table} {devices : List DeviceSlot} (hrunning : t.shutdown = .running)
      (hdevices : List.Forall₂ (fun device device' => device' = device ∧ device.present = false ∨
        ∃ flush, device' = { device with shutdownFlush := flush } ∧ device.present = true ∧
          (flush = .pending ∧ device.config.supportsFlush = true ∨ flush = .done))
        t.devices devices) :
      Move config policy t [] { t with devices := devices, shutdown := .quiescing }
  | force {t : Table}
      (hfailed : ∀ device ∈ t.devices, device.present = true → device.shutdownFlush = .failed) :
      Move config policy t [] { t with shutdown := .quiescing }

/-- A run of moves. -/
abbrev Moves (config : QueueConfig) (policy : Policy) := Star (Move config policy)

end Ginkgo.Kernel.AsyncBlock
