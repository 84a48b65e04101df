import Ginkgo.Kernel.AsyncBlock.Buffer
import Ginkgo.Lib.Vectors

/-!
# The asynchronous block queue

Requests to several devices are kept in a table of slots.  A transfer is split into children,
each of which becomes one command; the driver reports every command complete by its token.
Fences order the requests of a device, three priorities share it.

Diagnostic counters are not part of the model.  Indices, counts and times are natural numbers
that are checked where the code checks them.
-/

namespace Ginkgo.Kernel.AsyncBlock

open Ginkgo.Lib

/-! ## Names -/

structure BlockRequestId where
  raw : Nat
  deriving DecidableEq, Repr

namespace BlockRequestId

def invalid : BlockRequestId := ⟨0⟩

def generation (id : BlockRequestId) : Nat := tagGeneration id.raw

def index (id : BlockRequestId) : Option Nat := tagIndex id.raw

def fromParts (index generation : Nat) : BlockRequestId := ⟨packTag index generation⟩

end BlockRequestId

structure BlockDeviceId where
  raw : Nat
  deriving DecidableEq, Repr

namespace BlockDeviceId

def invalid : BlockDeviceId := ⟨0⟩

def generation (id : BlockDeviceId) : Nat := tagGeneration id.raw

def index (id : BlockDeviceId) : Option Nat := tagIndex id.raw

def fromParts (index generation : Nat) : BlockDeviceId := ⟨packTag index generation⟩

end BlockDeviceId

/-! ## Requests and commands -/

inductive BlockOperation
  | read
  | write
  | flush
  | barrier
  deriving DecidableEq, Repr

namespace BlockOperation

def transfersData : BlockOperation → Bool
  | read | write => true
  | flush | barrier => false

def isFence : BlockOperation → Bool
  | flush | barrier => true
  | read | write => false

end BlockOperation

inductive BlockPriority
  | latency
  | normal
  | background
  deriving DecidableEq, Repr

/-- The fair cursor moves through the priorities in turn. -/
def BlockPriority.next : BlockPriority → BlockPriority
  | latency => normal
  | normal => background
  | background => latency

/-- An array with one place for each priority. -/
structure PerPriority (α : Type) where
  latency : α
  normal : α
  background : α
  deriving DecidableEq

namespace PerPriority

variable {α : Type}

def get (a : PerPriority α) : BlockPriority → α
  | .latency => a.latency
  | .normal => a.normal
  | .background => a.background

def set (a : PerPriority α) (priority : BlockPriority) (x : α) : PerPriority α :=
  match priority with
  | .latency => { a with latency := x }
  | .normal => { a with normal := x }
  | .background => { a with background := x }

def all (x : α) : PerPriority α := ⟨x, x, x⟩

end PerPriority

structure QueueConfig where
  maxRequestBytes : Nat
  childBytes : Nat
  priorityWeights : PerPriority Nat
  backgroundAgingNs : Nat
  backgroundProgressInterval : UInt32
  deriving DecidableEq

namespace QueueConfig

def default : QueueConfig where
  maxRequestBytes := AsyncBlock.maxRequestBytes
  childBytes := defaultChildBytes
  priorityWeights := ⟨8, 4, 1⟩
  backgroundAgingNs := 50000000
  backgroundProgressInterval := 12

def isValid (config : QueueConfig) : Bool :=
  config.maxRequestBytes ≠ 0 && config.maxRequestBytes ≤ AsyncBlock.maxRequestBytes &&
    config.maxRequestBytes % sectorSize = 0 && config.childBytes ≠ 0 &&
    config.childBytes % sectorSize = 0 && config.childBytes ≤ config.maxRequestBytes &&
    config.priorityWeights.latency ≠ 0 && config.priorityWeights.normal ≠ 0 &&
    config.priorityWeights.background ≠ 0 && config.backgroundProgressInterval ≠ 0

end QueueConfig

structure BlockDeviceConfig where
  capacitySectors : Nat
  queueDepth : Nat
  supportsFlush : Bool
  dma : DmaConstraints
  deriving DecidableEq

def BlockDeviceConfig.isValid (config : BlockDeviceConfig) : Bool :=
  config.capacitySectors ≠ 0 && config.queueDepth ≠ 0 && config.dma.isValid

inductive QueueBuildError
  | invalidCapacity
  | capacityTooLarge
  | invalidConfiguration
  | outOfMemory
  deriving DecidableEq, Repr

structure RequestSpec where
  device : BlockDeviceId
  operation : BlockOperation
  lba : Nat
  buffer : Option BlockBuffer
  priority : BlockPriority
  deadlineNs : Option Nat
  deriving DecidableEq

inductive SubmitError
  | quiescing
  | queueFull
  | invalidDevice
  | deviceRemoved
  | invalidOperationBuffer
  | invalidLength
  | requestTooLarge
  | tooManyChildren
  | outOfBounds
  | addressOverflow
  | deadlineExpired
  | bounceRequired (error : DmaError)
  | dma (error : DmaError)
  | sequenceExhausted
  | orderingEpochExhausted
  deriving DecidableEq, Repr

/-- A failed submission returns the request, with what it owns. -/
structure SubmitFailure where
  error : SubmitError
  request : RequestSpec
  deriving DecidableEq

inductive RequestOutcome
  | success
  | cancelled
  | timedOut
  | ioError
  | unsupported
  | deviceReset
  | deviceRemoved
  | forcedShutdown
  deriving DecidableEq, Repr

structure RequestCompletion where
  id : BlockRequestId
  outcome : RequestOutcome
  bytesCompleted : Nat
  bounce : Option BounceBufferLease
  deriving DecidableEq

inductive RequestPoll
  | unknown
  | queued
  | inFlight
  | cancelPending
  | complete (outcome : Option RequestOutcome)
  deriving DecidableEq, Repr

inductive CancelResult
  | unknown
  | alreadyComplete
  | cancelledBeforeDispatch
  | pendingHardware
  | alreadyPending
  deriving DecidableEq, Repr

structure TimeoutReport where
  completedWithoutDma : Nat
  waitingForHardware : Nat
  deriving DecidableEq, Repr

inductive DeviceLifecycleError
  | invalidDevice
  | epochExhausted
  deriving DecidableEq, Repr

inductive DeviceRegisterError
  | invalidConfiguration
  | noDeviceSlot
  | generationExhausted
  deriving DecidableEq, Repr

inductive HardwareStatus
  | success
  | ioError
  | unsupported
  deriving DecidableEq, Repr

inductive CompletionDisposition
  | accepted
  | duplicateRejected
  | staleRejected
  deriving DecidableEq, Repr

structure DispatchToken where
  requestId : BlockRequestId
  deviceId : BlockDeviceId
  deviceEpoch : Nat
  childIndex : Nat
  serial : Nat
  shutdownFlush : Bool
  deriving DecidableEq, Repr

structure DispatchCommand where
  token : DispatchToken
  operation : BlockOperation
  lba : Nat
  byteLen : Nat
  priority : BlockPriority
  orderingEpoch : Nat
  segments : List DmaSegment
  deriving DecidableEq, Repr

inductive ShutdownState
  | running
  | quiescing
  | drained
  deriving DecidableEq, Repr

/-! ## The tables -/

inductive SlotState
  | free
  | queued
  | active
  | terminal
  | retired
  deriving DecidableEq, Repr

inductive ChildState
  | pending
  | inFlight (serial : Nat) (cancelNotified : Bool)
  | done
  deriving DecidableEq, Repr

structure RequestSlot where
  generation : Nat
  state : SlotState
  device : BlockDeviceId
  operation : BlockOperation
  lba : Nat
  buffer : Option BlockBuffer
  priority : BlockPriority
  deadlineNs : Option Nat
  sequence : Nat
  orderingEpoch : Nat
  childCount : Nat
  nextChild : Nat
  children : List ChildState
  inFlight : Nat
  queuedEntry : Bool
  pendingOutcome : Option RequestOutcome
  terminalOutcome : Option RequestOutcome
  bytesCompleted : Nat
  deriving DecidableEq

namespace RequestSlot

def vacant (generation : Nat) : RequestSlot where
  generation := generation
  state := .free
  device := .invalid
  operation := .read
  lba := 0
  buffer := none
  priority := .normal
  deadlineNs := none
  sequence := 0
  orderingEpoch := 0
  childCount := 0
  nextChild := 0
  children := List.replicate maxChildren .pending
  inFlight := 0
  queuedEntry := false
  pendingOutcome := none
  terminalOutcome := none
  bytesCompleted := 0

/-- Queued or active. -/
def isLive (slot : RequestSlot) : Bool := slot.state = .queued || slot.state = .active

/-- The bytes of a child. -/
def childLen (config : QueueConfig) (slot : RequestSlot) (child : Nat) : Nat :=
  match slot.buffer with
  | none => 0
  | some buffer => min config.childBytes (buffer.byteLen - child * config.childBytes)

end RequestSlot

structure QueueEntry where
  id : BlockRequestId
  enqueuedAtNs : Nat
  deriving DecidableEq, Repr

inductive ShutdownFlushState
  | none
  | pending
  | inFlight (serial : Nat)
  | done
  | failed
  deriving DecidableEq, Repr

structure DeviceSlot where
  generation : Nat
  epoch : Nat
  everRegistered : Bool
  present : Bool
  config : BlockDeviceConfig
  inFlight : Nat
  nextSequence : Nat
  nextOrderingEpoch : Nat
  nextSerial : Nat
  credits : PerPriority Nat
  fairCursor : BlockPriority
  nonBackgroundDispatches : Nat
  shutdownFlush : ShutdownFlushState
  deriving DecidableEq

def DeviceSlot.empty : DeviceSlot where
  generation := 1
  epoch := 1
  everRegistered := false
  present := false
  config := ⟨0, 0, false, .dma64⟩
  inFlight := 0
  nextSequence := 1
  nextOrderingEpoch := 1
  nextSerial := 1
  credits := .all 0
  fairCursor := .latency
  nonBackgroundDispatches := 0
  shutdownFlush := .none

structure AsyncBlockQueue where
  config : QueueConfig
  slots : List RequestSlot
  devices : List DeviceSlot
  queues : PerPriority (List QueueEntry)
  inFlightCommands : Nat
  shutdown : ShutdownState
  deriving DecidableEq

def nextNonzeroU64 (value : Nat) : Nat := (checkedAdd value 1).getD 1

/-- `u32::checked_add(1)`. -/
def checkedSuccU32 (value : Nat) : Option Nat := if value < u32Max then some (value + 1) else none

namespace AsyncBlockQueue

def tryNew (requestCapacity deviceCapacity : Nat) (config : QueueConfig) :
    EStateM QueueBuildError Budget AsyncBlockQueue := do
  if requestCapacity = 0 ∨ deviceCapacity = 0 then throw .invalidCapacity
  if u32Max ≤ requestCapacity ∨ u32Max ≤ deviceCapacity then throw .capacityTooLarge
  if !config.isValid then throw .invalidConfiguration
  allocCapacity .outOfMemory requestCapacity
  allocCapacity .outOfMemory deviceCapacity
  allocCapacity .outOfMemory requestCapacity
  allocCapacity .outOfMemory requestCapacity
  allocCapacity .outOfMemory requestCapacity
  return {
    config := config
    slots := List.replicate requestCapacity (.vacant 1)
    devices := List.replicate deviceCapacity .empty
    queues := .all []
    inFlightCommands := 0
    shutdown := .running }

def modifySlot (index : Nat) (f : RequestSlot → RequestSlot) (s : AsyncBlockQueue) :
    AsyncBlockQueue :=
  { s with slots := s.slots.modify index f }

def modifyDevice (index : Nat) (f : DeviceSlot → DeviceSlot) (s : AsyncBlockQueue) :
    AsyncBlockQueue :=
  { s with devices := s.devices.modify index f }

def requestIndex (id : BlockRequestId) (s : AsyncBlockQueue) : Option Nat := do
  let index ← id.index
  let slot ← s.slots[index]?
  if slot.generation = id.generation ∧ slot.state ≠ .free ∧ slot.state ≠ .retired then some index
  else none

def deviceIndex (id : BlockDeviceId) (s : AsyncBlockQueue) : Option Nat := do
  let index ← id.index
  let device ← s.devices[index]?
  if device.present ∧ device.generation = id.generation then some index else none

/-! ## Queue entries and the shutdown state -/

def enqueue (slotIndex nowNs : Nat) (s : AsyncBlockQueue) : AsyncBlockQueue :=
  match s.slots[slotIndex]? with
  | none => s
  | some slot =>
    { s with
      queues := s.queues.set slot.priority
        (s.queues.get slot.priority ++ [⟨.fromParts slotIndex slot.generation, nowNs⟩])
      slots := s.slots.set slotIndex { slot with queuedEntry := true } }

def removeQueuedEntry (slotIndex : Nat) (s : AsyncBlockQueue) : AsyncBlockQueue :=
  match s.slots[slotIndex]? with
  | none => s
  | some slot =>
    if slot.queuedEntry then
      { s with
        queues := s.queues.set slot.priority ((s.queues.get slot.priority).filter
          (·.id ≠ .fromParts slotIndex slot.generation))
        slots := s.slots.set slotIndex { slot with queuedEntry := false } }
    else s

def updateShutdownState (s : AsyncBlockQueue) : AsyncBlockQueue :=
  if s.shutdown ≠ .quiescing then s
  else
    let activeRequests := s.slots.any RequestSlot.isLive
    let deviceWork := s.devices.any fun device => device.present &&
      match device.shutdownFlush with
      | .pending | .inFlight _ => true
      | .none | .done | .failed => false
    if !activeRequests && !deviceWork && s.inFlightCommands = 0 then { s with shutdown := .drained }
    else s

def markTerminal (index : Nat) (outcome : RequestOutcome) (s : AsyncBlockQueue) : AsyncBlockQueue :=
  let s := s.removeQueuedEntry index
  match s.slots[index]? with
  | none => s
  | some slot =>
    if slot.state = .terminal then s
    else
      updateShutdownState { s with
        slots := s.slots.set index
          { slot with state := .terminal, terminalOutcome := some outcome } }

def abortRequest (index : Nat) (outcome : RequestOutcome) (s : AsyncBlockQueue) : AsyncBlockQueue :=
  let s := s.modifySlot index ({ · with pendingOutcome := some outcome })
  let s := s.removeQueuedEntry index
  if (s.slots[index]?).any (·.inFlight = 0) then s.markTerminal index outcome else s

def failSlot (device : BlockDeviceId) (outcome : RequestOutcome) (s : AsyncBlockQueue)
    (index : Nat) : AsyncBlockQueue :=
  match s.slots[index]? with
  | none => s
  | some slot =>
    if slot.device = device ∧ slot.isLive then
      let terminal := slot.pendingOutcome.getD outcome
      ({ s with
        slots := s.slots.set index
          { slot with inFlight := 0, pendingOutcome := some terminal } })
        |>.markTerminal index terminal
    else s

def failDeviceRequests (device : BlockDeviceId) (outcome : RequestOutcome) (s : AsyncBlockQueue) :
    AsyncBlockQueue :=
  (List.range s.slots.length).foldl (failSlot device outcome) s

def recountInFlight (s : AsyncBlockQueue) : AsyncBlockQueue :=
  { s with inFlightCommands := (s.devices.map (·.inFlight)).sum }

def registerDevice (config : BlockDeviceConfig) (s : AsyncBlockQueue) :
    Except DeviceRegisterError BlockDeviceId × AsyncBlockQueue :=
  if !config.isValid then (.error .invalidConfiguration, s)
  else
    match s.devices.findIdx? (!·.present) with
    | none => (.error .noDeviceSlot, s)
    | some index =>
      match s.devices[index]? with
      | none => (.error .noDeviceSlot, s)
      | some device =>
        let generation? := if device.everRegistered then checkedSuccU32 device.generation
          else some device.generation
        match generation? with
        | none => (.error .generationExhausted, s)
        | some generation =>
          (.ok (.fromParts index generation), { s with
            devices := s.devices.set index {
              generation := generation
              epoch := 1
              everRegistered := true
              present := true
              config := config
              inFlight := 0
              nextSequence := 1
              nextOrderingEpoch := 1
              nextSerial := 1
              credits := .all 0
              fairCursor := .latency
              nonBackgroundDispatches := 0
              shutdownFlush := if s.shutdown = .quiescing then .pending else .none } })

def deviceEpoch (id : BlockDeviceId) (s : AsyncBlockQueue) : Option Nat :=
  (s.deviceIndex id).bind fun index => (s.devices[index]?).map (·.epoch)

def validateTransfer (request : RequestSpec) (device : DeviceSlot) (s : AsyncBlockQueue) :
    Except SubmitError Nat :=
  match request.buffer with
  | none => .error .invalidOperationBuffer
  | some buffer =>
    if buffer.byteLen = 0 ∨ buffer.byteLen % sectorSize ≠ 0 then .error .invalidLength
    else if s.config.maxRequestBytes < buffer.byteLen then .error .requestTooLarge
    else
      match buffer.validateFor device.config.dma with
      | .error error => .error (if buffer.isBounce then .dma error else .bounceRequired error)
      | .ok () =>
        match checkedAdd request.lba (buffer.byteLen / sectorSize) with
        | none => .error .addressOverflow
        | some sectorEnd =>
          if device.config.capacitySectors < sectorEnd then .error .outOfBounds
          else
            let children := (buffer.byteLen + s.config.childBytes - 1) / s.config.childBytes
            if children = 0 ∨ maxChildren < children then .error .tooManyChildren
            else .ok children

/-- The device of the request and the number of its commands. -/
def validateSubmission (nowNs : Nat) (request : RequestSpec) (s : AsyncBlockQueue) :
    Except SubmitError (Nat × Nat) :=
  if s.shutdown ≠ .running then .error .quiescing
  else
    match request.device.index.bind fun index => (s.devices[index]?).map (index, ·) with
    | none => .error .invalidDevice
    | some (deviceIndex, device) =>
      if device.generation ≠ request.device.generation then .error .invalidDevice
      else if !device.present then .error .deviceRemoved
      else if request.deadlineNs.any (· ≤ nowNs) then .error .deadlineExpired
      else if request.operation.transfersData then
        (s.validateTransfer request device).map (deviceIndex, ·)
      else if request.buffer.isSome ∨ request.lba ≠ 0 then .error .invalidOperationBuffer
      else .ok (deviceIndex, 1)

/-- The slot of an accepted request. -/
def acceptedSlot (request : RequestSpec) (generation sequence orderingEpoch childCount : Nat) :
    RequestSlot where
  generation := generation
  state := .queued
  device := request.device
  operation := request.operation
  lba := request.lba
  buffer := request.buffer
  priority := request.priority
  deadlineNs := request.deadlineNs
  sequence := sequence
  orderingEpoch := orderingEpoch
  childCount := childCount
  nextChild := 0
  children := List.replicate maxChildren .pending
  inFlight := 0
  queuedEntry := false
  pendingOutcome := none
  terminalOutcome := none
  bytesCompleted := 0

def submit (nowNs : Nat) (request : RequestSpec) (s : AsyncBlockQueue) :
    Except SubmitFailure BlockRequestId × AsyncBlockQueue :=
  match s.validateSubmission nowNs request with
  | .error error => (.error ⟨error, request⟩, s)
  | .ok (deviceIndex, childCount) =>
    match s.slots.findIdx? (·.state = .free) with
    | none => (.error ⟨.queueFull, request⟩, s)
    | some slotIndex =>
      match s.slots[slotIndex]?, s.devices[deviceIndex]? with
      | some slot, some device =>
        match checkedAdd device.nextSequence 1 with
        | none => (.error ⟨.sequenceExhausted, request⟩, s)
        | some nextSequence =>
          let nextOrderingEpoch? := if request.operation.isFence then
              checkedAdd device.nextOrderingEpoch 1
            else some device.nextOrderingEpoch
          match nextOrderingEpoch? with
          | none => (.error ⟨.orderingEpochExhausted, request⟩, s)
          | some nextOrderingEpoch =>
            (.ok (.fromParts slotIndex slot.generation), ({ s with
              devices := s.devices.set deviceIndex { device with
                nextSequence := nextSequence
                nextOrderingEpoch := nextOrderingEpoch }
              slots := s.slots.set slotIndex (acceptedSlot request slot.generation
                device.nextSequence device.nextOrderingEpoch childCount) }).enqueue
                slotIndex nowNs)
      | _, _ => (.error ⟨.queueFull, request⟩, s)

/-! ## Polling, cancelling and expiry -/

def pollRequest (id : BlockRequestId) (s : AsyncBlockQueue) : RequestPoll :=
  match (s.requestIndex id).bind (s.slots[·]?) with
  | none => .unknown
  | some slot =>
    match slot.state with
    | .queued => if slot.pendingOutcome.isSome then .cancelPending else .queued
    | .active => if slot.pendingOutcome.isSome then .cancelPending else .inFlight
    | .terminal => .complete slot.terminalOutcome
    | .free | .retired => .unknown

def cancel (id : BlockRequestId) (s : AsyncBlockQueue) : CancelResult × AsyncBlockQueue :=
  match s.requestIndex id with
  | none => (.unknown, s)
  | some index =>
    match s.slots[index]? with
    | none => (.unknown, s)
    | some slot =>
      match slot.state with
      | .terminal => (.alreadyComplete, s)
      | .free | .retired => (.unknown, s)
      | .queued | .active =>
        if slot.pendingOutcome.isSome then (.alreadyPending, s)
        else
          let s := s.abortRequest index .cancelled
          if (s.slots[index]?).any (·.state = .terminal) then (.cancelledBeforeDispatch, s)
          else (.pendingHardware, s)

/-- The deadline of a live request has passed. -/
def expires (nowNs : Nat) (slot : RequestSlot) : Bool :=
  slot.isLive && slot.pendingOutcome.isNone && slot.deadlineNs.any (· ≤ nowNs)

def expireSlot (nowNs : Nat) : TimeoutReport × AsyncBlockQueue → Nat →
    TimeoutReport × AsyncBlockQueue
  | (report, s), index =>
    match s.slots[index]? with
    | none => (report, s)
    | some slot =>
      if expires nowNs slot then
        (if slot.inFlight ≠ 0 then
            { report with waitingForHardware := report.waitingForHardware + 1 }
          else { report with completedWithoutDma := report.completedWithoutDma + 1 },
          s.abortRequest index .timedOut)
      else (report, s)

def expireDeadlines (nowNs : Nat) (s : AsyncBlockQueue) : TimeoutReport × AsyncBlockQueue :=
  (List.range s.slots.length).foldl (expireSlot nowNs) (⟨0, 0⟩, s)

/-- The first command of a slot that the driver was not asked to cancel. -/
def unnotifiedChild (slot : RequestSlot) : Option (Nat × Nat) :=
  (List.range slot.nextChild).findSome? fun child =>
    match slot.children[child]? with
    | some (ChildState.inFlight serial false) => some (child, serial)
    | _ => none

def cancelTarget (device : BlockDeviceId) (s : AsyncBlockQueue) :
    Option (Nat × RequestSlot × Nat × Nat) :=
  (List.range s.slots.length).findSome? fun slotIndex => do
    let slot ← s.slots[slotIndex]?
    if slot.device ≠ device ∨ slot.pendingOutcome.isNone then none
    else (unnotifiedChild slot).map fun (child, serial) => (slotIndex, slot, child, serial)

def pollCancel (device : BlockDeviceId) (s : AsyncBlockQueue) :
    Option DispatchToken × AsyncBlockQueue :=
  match (s.deviceIndex device).bind (s.devices[·]?) with
  | none => (none, s)
  | some deviceSlot =>
    match s.cancelTarget device with
    | none => (none, s)
    | some (slotIndex, slot, child, serial) =>
      (some {
        requestId := .fromParts slotIndex slot.generation
        deviceId := device
        deviceEpoch := deviceSlot.epoch
        childIndex := child
        serial := serial
        shutdownFlush := false },
      { s with
        slots := s.slots.set slotIndex
          { slot with children := slot.children.set child (.inFlight serial true) } })

/-! ## Dispatch -/

def isDispatchable (slotIndex deviceIndex : Nat) (s : AsyncBlockQueue) : Bool :=
  match s.slots[slotIndex]?, s.devices[deviceIndex]? with
  | some slot, some device =>
    if !slot.isLive || slot.pendingOutcome.isSome || slot.childCount ≤ slot.nextChild ||
        !device.present then false
    else if slot.operation.isFence then
      !s.slots.any fun other => other.device = slot.device && other.sequence < slot.sequence &&
        other.isLive
    else
      !s.slots.any fun other => other.device = slot.device &&
        other.orderingEpoch < slot.orderingEpoch && other.operation.isFence && other.isLive
  | _, _ => false

/-- The slot of a queue entry that may be dispatched now. -/
def candidate (deviceIndex : Nat) (priority : BlockPriority) (nowNs : Nat) (requireAged : Bool)
    (s : AsyncBlockQueue) (entry : QueueEntry) : Option Nat :=
  (s.requestIndex entry.id).filter fun index =>
    (s.slots[index]?).any fun slot =>
      slot.queuedEntry && slot.device.index = some deviceIndex && slot.priority = priority &&
        (!requireAged || s.config.backgroundAgingNs ≤ nowNs - entry.enqueuedAtNs) &&
        s.isDispatchable index deviceIndex

/-- Look through so many entries from the front; those passed over go to the back. -/
def rotate (test : QueueEntry → Option Nat) : Nat → List QueueEntry → Option Nat × List QueueEntry
  | 0, queue => (none, queue)
  | _ + 1, [] => (none, [])
  | count + 1, entry :: queue =>
    match test entry with
    | some index => (some index, queue)
    | none => rotate test count (queue ++ [entry])

def takeEligible (deviceIndex : Nat) (priority : BlockPriority) (nowNs : Nat) (requireAged : Bool)
    (s : AsyncBlockQueue) : Option Nat × AsyncBlockQueue :=
  let queue := s.queues.get priority
  match rotate (s.candidate deviceIndex priority nowNs requireAged) queue.length queue with
  | (none, queue) => (none, { s with queues := s.queues.set priority queue })
  | (some index, queue) =>
    (some index, ({ s with queues := s.queues.set priority queue }).modifySlot index
      ({ · with queuedEntry := false }))

def refillCredits (weights : PerPriority Nat) (device : DeviceSlot) : DeviceSlot :=
  if device.credits = .all 0 then { device with credits := weights } else device

/-- The rounds of the fair loop. -/
def selectFair (deviceIndex nowNs : Nat) : Nat → AsyncBlockQueue → Option Nat × AsyncBlockQueue
  | 0, s => (none, s)
  | rounds + 1, s =>
    match s.devices[deviceIndex]? with
    | none => (none, s)
    | some device =>
      let device := refillCredits s.config.priorityWeights device
      let priority := device.fairCursor
      let device := { device with fairCursor := priority.next }
      let s := { s with devices := s.devices.set deviceIndex device }
      if device.credits.get priority = 0 then selectFair deviceIndex nowNs rounds s
      else
        match s.takeEligible deviceIndex priority nowNs false with
        | (some index, s) =>
          (some index, s.modifyDevice deviceIndex fun device => { device with
            credits := device.credits.set priority (device.credits.get priority - 1) })
        | (none, s) =>
          selectFair deviceIndex nowNs rounds (s.modifyDevice deviceIndex fun device =>
            { device with credits := device.credits.set priority 0 })

def selectRequest (deviceIndex nowNs : Nat) (s : AsyncBlockQueue) : Option Nat × AsyncBlockQueue :=
  let forceBackground := (s.devices[deviceIndex]?).any fun device =>
    s.config.backgroundProgressInterval.toNat ≤ device.nonBackgroundDispatches
  match s.takeEligible deviceIndex .background nowNs true with
  | (some index, s) => (some index, s)
  | (none, s) =>
    match if forceBackground then s.takeEligible deviceIndex .background nowNs false
      else (none, s) with
    | (some index, s) => (some index, s)
    | (none, s) => selectFair deviceIndex nowNs 6 s

/-- Where the child stands in the transfer and its segments. -/
def childSlice (config : QueueConfig) (slot : RequestSlot) (child : Nat) :
    Option (Nat × Nat × List DmaSegment) := do
  let offset := child * config.childBytes
  if u32Max < offset then none
  else if slot.operation.transfersData then
    let buffer ← slot.buffer
    if buffer.byteLen < offset then none
    else
      let byteLen := min config.childBytes (buffer.byteLen - offset)
      if byteLen = 0 then some (offset, 0, [])
      else
        match buffer.slice offset byteLen with
        | .error _ => none
        | .ok segments => some (offset, byteLen, segments)
  else some (offset, 0, [])

/-- The slot with its next child in flight. -/
def dispatchedSlot (slot : RequestSlot) (serial : Nat) : RequestSlot :=
  { slot with
    state := .active
    children := slot.children.set slot.nextChild (.inFlight serial false)
    nextChild := slot.nextChild + 1
    inFlight := slot.inFlight + 1 }

def dispatchedDevice (device : DeviceSlot) (priority : BlockPriority) : DeviceSlot :=
  { device with
    inFlight := device.inFlight + 1
    nonBackgroundDispatches :=
      if priority = .background then 0 else min (device.nonBackgroundDispatches + 1) u32Max }

def dispatchRequest (deviceIndex slotIndex nowNs : Nat) (s : AsyncBlockQueue) :
    Option DispatchCommand × AsyncBlockQueue :=
  match s.slots[slotIndex]?, s.devices[deviceIndex]? with
  | some slot, some device =>
    match childSlice s.config slot slot.nextChild with
    | none => (none, s)
    | some (offset, byteLen, segments) =>
      let serial := device.nextSerial
      let device := { device with nextSerial := nextNonzeroU64 serial }
      match checkedAdd slot.lba (offset / sectorSize) with
      | none => (none, { s with devices := s.devices.set deviceIndex device })
      | some lba =>
        let s := { s with
          slots := s.slots.set slotIndex (dispatchedSlot slot serial)
          devices := s.devices.set deviceIndex (dispatchedDevice device slot.priority)
          inFlightCommands := s.inFlightCommands + 1 }
        (some {
          token := {
            requestId := .fromParts slotIndex slot.generation
            deviceId := slot.device
            deviceEpoch := device.epoch
            childIndex := slot.nextChild
            serial := serial
            shutdownFlush := false }
          operation := slot.operation
          lba := lba
          byteLen := byteLen
          priority := slot.priority
          orderingEpoch := slot.orderingEpoch
          segments := segments },
        if slot.nextChild + 1 < slot.childCount then s.enqueue slotIndex nowNs else s)
  | _, _ => (none, s)

def dispatchShutdownFlush (deviceIndex : Nat) (s : AsyncBlockQueue) :
    Option DispatchCommand × AsyncBlockQueue :=
  match s.devices[deviceIndex]? with
  | none => (none, s)
  | some device =>
    if s.shutdown ≠ .quiescing ∨ device.shutdownFlush ≠ .pending ∨ device.inFlight ≠ 0 ∨
        s.slots.any (fun slot => slot.device.index = some deviceIndex && slot.isLive) then
      (none, s)
    else
      (some {
        token := {
          requestId := .invalid
          deviceId := .fromParts deviceIndex device.generation
          deviceEpoch := device.epoch
          childIndex := 0
          serial := device.nextSerial
          shutdownFlush := true }
        operation := .flush
        lba := 0
        byteLen := 0
        priority := .latency
        orderingEpoch := device.nextOrderingEpoch
        segments := [] },
      { s with
        devices := s.devices.set deviceIndex { device with
          nextSerial := nextNonzeroU64 device.nextSerial
          shutdownFlush := .inFlight device.nextSerial
          inFlight := device.inFlight + 1 }
        inFlightCommands := s.inFlightCommands + 1 })

def dispatchOne (device : BlockDeviceId) (nowNs : Nat) (s : AsyncBlockQueue) :
    Option DispatchCommand × AsyncBlockQueue :=
  let s := (s.expireDeadlines nowNs).2
  match s.deviceIndex device with
  | none => (none, s)
  | some deviceIndex =>
    if (s.devices[deviceIndex]?).any fun device => device.config.queueDepth ≤ device.inFlight then
      (none, s)
    else
      match s.selectRequest deviceIndex nowNs with
      | (some slotIndex, s) => s.dispatchRequest deviceIndex slotIndex nowNs
      | (none, s) => s.dispatchShutdownFlush deviceIndex

/-- The slot when a command of it is reported complete. -/
def completedSlot (config : QueueConfig) (child : Nat) (status : HardwareStatus)
    (slot : RequestSlot) : RequestSlot :=
  let slot := { slot with
    children := slot.children.set child .done
    inFlight := slot.inFlight - 1 }
  match status with
  | .success =>
    { slot with bytesCompleted := min (slot.bytesCompleted + slot.childLen config child) u32Max }
  | .ioError =>
    { slot with pendingOutcome := some (slot.pendingOutcome.getD .ioError) }
  | .unsupported =>
    { slot with pendingOutcome := some (slot.pendingOutcome.getD .unsupported) }

def completeChild (deviceIndex slotIndex child : Nat) (status : HardwareStatus)
    (slot : RequestSlot) (s : AsyncBlockQueue) : AsyncBlockQueue :=
  let s := { s with
    slots := s.slots.set slotIndex (completedSlot s.config child status slot)
    inFlightCommands := s.inFlightCommands - 1 }
  let s := s.modifyDevice deviceIndex fun device => { device with inFlight := device.inFlight - 1 }
  let s := if status ≠ .success ∧ slot.pendingOutcome.isNone then s.removeQueuedEntry slotIndex
    else s
  let s := match s.slots[slotIndex]? with
    | none => s
    | some slot =>
      if slot.inFlight = 0 ∧ (slot.pendingOutcome.isSome ∨ slot.nextChild = slot.childCount) then
        s.markTerminal slotIndex (slot.pendingOutcome.getD .success)
      else s
  s.updateShutdownState

def completeShutdownFlush (deviceIndex : Nat) (device : DeviceSlot) (token : DispatchToken)
    (status : HardwareStatus) (s : AsyncBlockQueue) : CompletionDisposition × AsyncBlockQueue :=
  match device.shutdownFlush with
  | .done | .failed => (.duplicateRejected, s)
  | .none | .pending => (.staleRejected, s)
  | .inFlight serial =>
    if serial = token.serial then
      (.accepted, updateShutdownState { s with
        devices := s.devices.set deviceIndex { device with
          inFlight := device.inFlight - 1
          shutdownFlush := if status = .success then .done else .failed }
        inFlightCommands := s.inFlightCommands - 1 })
    else (.staleRejected, s)

def complete (token : DispatchToken) (status : HardwareStatus) (s : AsyncBlockQueue) :
    CompletionDisposition × AsyncBlockQueue :=
  match token.deviceId.index.bind fun index => (s.devices[index]?).map (index, ·) with
  | none => (.staleRejected, s)
  | some (deviceIndex, device) =>
    if !device.present ∨ device.generation ≠ token.deviceId.generation ∨
        device.epoch ≠ token.deviceEpoch then (.staleRejected, s)
    else if token.shutdownFlush then s.completeShutdownFlush deviceIndex device token status
    else
      match (s.requestIndex token.requestId).bind fun index =>
        (s.slots[index]?).map (index, ·) with
      | none => (.staleRejected, s)
      | some (slotIndex, slot) =>
        if slot.device ≠ token.deviceId then (.staleRejected, s)
        else
          match slot.children[token.childIndex]? with
          | none | some .pending => (.staleRejected, s)
          | some .done => (.duplicateRejected, s)
          | some (.inFlight serial _) =>
            if serial ≠ token.serial then (.staleRejected, s)
            else (.accepted, s.completeChild deviceIndex slotIndex token.childIndex status slot)

def takeCompletion (id : BlockRequestId) (s : AsyncBlockQueue) :
    Option RequestCompletion × AsyncBlockQueue :=
  match (s.requestIndex id).bind fun index => (s.slots[index]?).map (index, ·) with
  | none => (none, s)
  | some (index, slot) =>
    if slot.state ≠ .terminal then (none, s)
    else
      match slot.terminalOutcome with
      | none => (none, s)
      | some outcome =>
        (some {
          id := id
          outcome := outcome
          bytesCompleted := slot.bytesCompleted
          bounce := slot.buffer.bind (·.bounce) },
        { s with
          slots := s.slots.set index (match checkedSuccU32 slot.generation with
            | some generation => .vacant generation
            | none => { RequestSlot.vacant slot.generation with state := .retired }) })

def resetDevice (device : BlockDeviceId) (s : AsyncBlockQueue) :
    Except DeviceLifecycleError Unit × AsyncBlockQueue :=
  match (s.deviceIndex device).bind fun index => (s.devices[index]?).map (index, ·) with
  | none => (.error .invalidDevice, s)
  | some (deviceIndex, deviceSlot) =>
    match checkedSuccU32 deviceSlot.epoch with
    | none => (.error .epochExhausted, s)
    | some epoch =>
      (.ok (), ((({ s with
        devices := s.devices.set deviceIndex { deviceSlot with
          epoch := epoch
          inFlight := 0
          credits := .all 0
          shutdownFlush := if s.shutdown = .quiescing then .failed else .none } }
        : AsyncBlockQueue).failDeviceRequests device
          .deviceReset).recountInFlight).updateShutdownState)

def removeDevice (device : BlockDeviceId) (s : AsyncBlockQueue) :
    Except DeviceLifecycleError Unit × AsyncBlockQueue :=
  match (s.deviceIndex device).bind fun index => (s.devices[index]?).map (index, ·) with
  | none => (.error .invalidDevice, s)
  | some (deviceIndex, deviceSlot) =>
    match checkedSuccU32 deviceSlot.epoch with
    | none => (.error .epochExhausted, s)
    | some epoch =>
      (.ok (), ((({ s with
        devices := s.devices.set deviceIndex { deviceSlot with
          epoch := epoch
          present := false
          inFlight := 0
          shutdownFlush := .failed } }
        : AsyncBlockQueue).failDeviceRequests device
          .deviceRemoved).recountInFlight).updateShutdownState)

def beginShutdown (s : AsyncBlockQueue) : AsyncBlockQueue :=
  if s.shutdown ≠ .running then s
  else
    updateShutdownState { s with
      shutdown := .quiescing
      devices := s.devices.map fun device =>
        if device.present then
          { device with
            shutdownFlush := if device.config.supportsFlush then .pending else .done }
        else device }

/-- The epoch does not move past the largest word. -/
def forceDevice (s : AsyncBlockQueue) (deviceIndex : Nat) : AsyncBlockQueue :=
  match s.devices[deviceIndex]? with
  | none => s
  | some device =>
    if device.present then
      ({ s with devices := s.devices.set deviceIndex { device with
          epoch := max (min (device.epoch + 1) u32Max) 1
          inFlight := 0
          shutdownFlush := .failed } } : AsyncBlockQueue).failDeviceRequests
        (.fromParts deviceIndex device.generation) .forcedShutdown
    else s

def forceShutdown (s : AsyncBlockQueue) : AsyncBlockQueue :=
  (((List.range s.devices.length).foldl forceDevice
    { s with shutdown := .quiescing }).recountInFlight).updateShutdownState

end AsyncBlockQueue

end Ginkgo.Kernel.AsyncBlock
