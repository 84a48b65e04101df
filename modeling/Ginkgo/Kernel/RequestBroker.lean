import Ginkgo.Ipc.Control
import Ginkgo.Kernel.Request

/-!
# The request broker

The broker owns the request runtime and what a request holds outside of it: the prepared
buffers, the authority over its target, and the control that the submitter waits on.  It
keeps a slot table of its own, which it fills and empties alongside that of the runtime.

Controls are cells that the broker shares with the handles of the submitter.  Who waits on
a control is not modelled here.
-/

namespace Ginkgo.Kernel.Request

open Ginkgo.Ipc Ginkgo.Lib Ginkgo.Sysapi

/-! ## Prepared requests -/

inductive BrokerError
  | runtime (error : RequestError)
  | control (error : IpcError)
  | outOfMemory
  | tooManyBuffers
  | resourceOverflow
  | invalidDeadline
  | pinnedPageOwnerMismatch
  | invalidRequest
  | releaseNotDispatched
  | resourcesAlreadyTaken
  | actionMismatch
  deriving DecidableEq

inductive PreparedRequestTarget
  | none
  | file (file : FileHandle)
  | directory (directory : Option DirectoryHandle) (isRoot : Bool) (rights : Rights)
  | filesystemSync
  deriving DecidableEq

def fileRequestTarget (file : FileHandle) : RequestTarget :=
  ⟨file.generation <<< 32 ||| file.nodeId⟩

def directoryRequestTarget : Option DirectoryHandle → RequestTarget
  | some directory => ⟨directory.generation <<< 32 ||| directory.nodeId⟩
  | none => ⟨wordMax⟩

def PreparedRequestTarget.validate (lease : PreparedRequestTarget) (operation : RequestOperation)
    (target : RequestTarget) : Except BrokerError Unit :=
  let valid : Bool :=
    match operation, lease with
    | .nop, .none => target = ⟨0⟩
    | .audioWrite, .none | .synthetic, .none => target ≠ ⟨0⟩
    | .filesystemRead, .file handle | .filesystemWrite, .file handle =>
      target = fileRequestTarget handle
    | .filesystemOpen, .directory handle _ rights =>
      Bitflags.contains rights Rights.READ && target = directoryRequestTarget handle
    | .filesystemSync, .filesystemSync => target ≠ ⟨0⟩
    | _, _ => false
  if valid then .ok () else .error .actionMismatch

structure BrokerPayload where
  operationArgument : Nat
  userData : Nat
  requestFlags : Nat
  deriving DecidableEq

structure PinnedUserPage where
  virtualStart : Nat
  physicalStart : Nat
  pageOffset : Nat
  byteLength : Nat
  deriving DecidableEq

structure SharedMemoryRequestLease where
  object : Nat
  offset : Nat
  len : Nat
  rights : Rights
  deriving DecidableEq

inductive PreparedRequestBuffer
  | copied (flags userAddress : Nat) (bytes : List UInt8)
  | pinned (flags ownerProcessId : Nat) (pages : List PinnedUserPage)
  | sharedMemory (flags : Nat) (lease : SharedMemoryRequestLease)
  deriving DecidableEq

structure PreparedBrokerRequest where
  owner : RequestOwner
  target : RequestTarget
  targetLease : PreparedRequestTarget
  device : Option RequestDevice
  operation : RequestOperation
  completionMode : RequestCompletionMode
  payload : BrokerPayload
  deadlineNs : Option Nat
  buffers : List PreparedRequestBuffer

def deadlineInfinite : Nat := 2 ^ 63 - 1

def checkedPublicDeadline : Option Nat → Except BrokerError Int
  | none => .ok deadlineInfinite
  | some deadline => if deadline < deadlineInfinite then .ok deadline else .error .invalidDeadline

def orOverflow : Option Nat → Except BrokerError Nat
  | some total => .ok total
  | none => .error .resourceOverflow

namespace PreparedBrokerRequest

def pageBytes : List PinnedUserPage → Nat → Except BrokerError Nat
  | [], total => .ok total
  | page :: rest, total => do pageBytes rest (← orOverflow (checkedAdd total page.byteLength))

def bufferBytes : PreparedRequestBuffer → Except BrokerError Nat
  | .copied _ _ bytes => .ok bytes.length
  | .pinned _ _ pages => pageBytes pages 0
  | .sharedMemory _ lease => .ok lease.len

def sumBytes : List PreparedRequestBuffer → Nat → Except BrokerError Nat
  | [], total => .ok total
  | buffer :: rest, total => do
    sumBytes rest (← orOverflow (checkedAdd total (← bufferBytes buffer)))

def totalRequestedBytes (request : PreparedBrokerRequest) : Except BrokerError Nat :=
  sumBytes request.buffers 0

def addResources (owner : RequestOwner) (resources : RequestResources) :
    PreparedRequestBuffer → Except BrokerError RequestResources
  | .copied _ _ bytes => do
    return { resources with
      copiedBytes := ← orOverflow (checkedAdd resources.copiedBytes bytes.length) }
  | .pinned _ ownerProcessId pages => do
    if ownerProcessId ≠ owner.processId then throw .pinnedPageOwnerMismatch
    return { resources with
      pinnedPages := ← orOverflow (checkedAdd resources.pinnedPages pages.length) }
  | .sharedMemory _ lease => do
    return { resources with
      sharedBytes := ← orOverflow (checkedAdd resources.sharedBytes lease.len) }

def resources (request : PreparedBrokerRequest) : Except BrokerError RequestResources := do
  request.targetLease.validate request.operation request.target
  if request.buffers.length > requestMaxBuffers then throw .tooManyBuffers
  let resources ← request.buffers.foldlM (addResources request.owner) {}
  let _ ← request.totalRequestedBytes
  let _ ← checkedPublicDeadline request.deadlineNs
  return resources

def submission (request : PreparedBrokerRequest) :
    Except BrokerError (RequestSubmission RequestOperation BrokerPayload) := do
  return {
    owner := request.owner
    target := request.target
    device := request.device
    operation := request.operation
    servicePayload := request.payload
    deadlineNs := request.deadlineNs
    resources := ← request.resources }

end PreparedBrokerRequest

def initialInfo (request : PreparedBrokerRequest) (submittedNs : Nat) :
    Except BrokerError RequestInfo := do
  return {
    version := requestInfoVersion
    size := requestInfoSize
    state := RequestState.pending.raw
    operation := request.operation.raw
    requestFlags := request.payload.requestFlags
    resultFlags := 0
    result := Status.shouldWait.raw
    reserved := 0
    bytesTransferred := 0
    deadlineNs := ← checkedPublicDeadline request.deadlineNs
    submittedNs := submittedNs
    startedNs := 0
    completedNs := 0
    userData := request.payload.userData }

/-! ## The slot table -/

structure CompletionResult where
  bytesTransferred : Nat
  resultFlags : Nat
  deriving DecidableEq

structure BrokerEntry where
  id : RequestId
  owner : RequestOwner
  target : RequestTarget
  targetLease : PreparedRequestTarget
  control : RequestControlId
  info : RequestInfo
  completionMode : RequestCompletionMode
  buffers : Option (List PreparedRequestBuffer)
  serviceOffset : Nat
  durabilityTicket : Option Nat
  totalRequestedBytes : Nat
  completionResult : Option CompletionResult
  terminalPublicationAttempted : Bool
  releaseDispatched : Bool

structure BrokerSlot where
  generation : Nat
  retired : Bool
  entry : Option BrokerEntry

namespace BrokerSlot

def vacant : BrokerSlot := ⟨1, false, none⟩

def isVacant (slot : BrokerSlot) : Bool := slot.entry.isNone && !slot.retired

end BrokerSlot

structure BrokerSubmission where
  id : RequestId
  control : RequestControlId
  completionMode : RequestCompletionMode

structure BrokerCompletion where
  id : RequestId
  status : Status
  deviceReleased : Bool
  bytesTransferred : Nat
  resultFlags : Nat

structure ReleasedBrokerResources where
  id : RequestId
  owner : RequestOwner
  buffers : List PreparedRequestBuffer

/-- `controls` are the controls allocated so far, `memory` how many allocations still
succeed. -/
structure RequestBroker where
  runtime : RequestRuntime RequestOperation BrokerPayload
  slots : List BrokerSlot
  publishedBytes : Nat
  controls : Heap RequestControlState
  memory : Budget

abbrev BrokerM := EStateM BrokerError RequestBroker

namespace RequestBroker

def new (limits : RequestLimits) (memory : Budget) : RequestBroker where
  runtime := .vacant limits
  slots := List.replicate limits.systemCapacity .vacant
  publishedBytes := 0
  controls := .empty .unallocated
  memory := memory

/-- Create a broker out of what memory there is. -/
def tryNewWithLimits (limits : RequestLimits) (memory : Budget) :
    Except BrokerError RequestBroker :=
  match RequestRuntime.tryNewWithLimits limits memory with
  | .error error _ => .error (.runtime error)
  | .ok runtime memory =>
    match allocCapacity (ε := BrokerError) .outOfMemory limits.systemCapacity memory with
    | .error error _ => .error error
    | .ok _ memory => .ok { new limits memory with runtime := runtime }

/-- Call the runtime. -/
def onRuntime {α : Type} (call : RequestRuntime RequestOperation BrokerPayload →
    Except RequestError α × RequestRuntime RequestOperation BrokerPayload) : BrokerM α := fun s =>
  match call s.runtime with
  | (.ok value, runtime) => .ok value { s with runtime := runtime }
  | (.error error, runtime) => .error (.runtime error) { s with runtime := runtime }

def liftExcept {α : Type} : Except BrokerError α → BrokerM α
  | .ok value => pure value
  | .error error => throw error

def onMemory {α : Type} : EStateM BrokerError Budget α → BrokerM α :=
  zoom (·.memory) fun memory s => { s with memory := memory }

def tryReserve (count : Nat) : BrokerM Unit := onMemory (allocCapacity .outOfMemory count)

/-- `RequestControl::new`. -/
def newControl (requestId : Nat) (info : RequestInfo) : BrokerM RequestControlId := do
  if requestId = 0 ∨ !requestStateIsNonterminal info.requestState then
    throw (.control .invalidMessage)
  onMemory (alloc (.control .outOfMemory))
  let s ← get
  set { s with controls := s.controls.alloc ⟨requestId, info, false, []⟩ }
  return s.controls.next

def nextVacantSlot (s : RequestBroker) : Option Nat := s.slots.findIdx? BrokerSlot.isVacant

def expectedId (slotIndex : Nat) (s : RequestBroker) : RequestId :=
  .fromParts slotIndex (((s.slots[slotIndex]?).map (·.generation)).getD 0)

def idSlotIndex (id : RequestId) : Option Nat := if !id.isValid then none else id.index

/-- Where the entry of a request is. -/
def entryIndex (id : RequestId) (s : RequestBroker) : Option Nat :=
  match idSlotIndex id with
  | none => none
  | some index =>
    match s.slots[index]? with
    | none => none
    | some slot =>
      if slot.generation = id.generation && slot.entry.any (fun entry => entry.id = id) then
        some index
      else none

def entry (id : RequestId) (s : RequestBroker) : Option BrokerEntry :=
  (s.entryIndex id).bind fun index => (s.slots[index]?).bind (·.entry)

/-- Change the entry of a request, if there is one. -/
def modifyEntry (id : RequestId) (f : BrokerEntry → BrokerEntry) (s : RequestBroker) :
    RequestBroker :=
  match s.entryIndex id with
  | none => s
  | some index =>
    { s with slots := s.slots.modify index fun slot =>
        { slot with entry := slot.entry.map f } }

/-! ## Submission -/

def newEntry (id : RequestId) (control : RequestControlId) (info : RequestInfo)
    (request : PreparedBrokerRequest) : BrokerEntry where
  id := id
  owner := request.owner
  target := request.target
  targetLease := request.targetLease
  control := control
  info := info
  completionMode := request.completionMode
  buffers := some request.buffers
  serviceOffset := 0
  durabilityTicket := none
  totalRequestedBytes := (request.totalRequestedBytes.toOption).getD 0
  completionResult := none
  terminalPublicationAttempted := false
  releaseDispatched := false

def install (slotIndex : Nat) (id : RequestId) (control : RequestControlId) (info : RequestInfo)
    (request : PreparedBrokerRequest) (s : RequestBroker) : RequestBroker :=
  { s with slots := s.slots.modify slotIndex fun slot =>
      { slot with entry := some (newEntry id control info request) } }

def submit (request : PreparedBrokerRequest) (nowNs : Nat) : BrokerM BrokerSubmission := do
  let s ← get
  match s.nextVacantSlot with
  | none => throw (.runtime .systemFull)
  | some slotIndex =>
    let expectedId := s.expectedId slotIndex
    let submission ← liftExcept request.submission
    let info ← liftExcept (initialInfo request nowNs)
    let control ← newControl expectedId.raw info
    let ids ← onRuntime (RequestRuntime.submit submission nowNs)
    let id := ids.headD ⟨0⟩
    modify (install slotIndex id control info request)
    return ⟨id, control, request.completionMode⟩

/-- What the first pass over a batch makes of one member. -/
structure PreparedMember where
  request : PreparedBrokerRequest
  slotIndex : Nat
  submission : RequestSubmission RequestOperation BrokerPayload
  info : RequestInfo
  id : RequestId
  control : RequestControlId

def prepareBatch (nowNs : Nat) : List (PreparedBrokerRequest × Nat) → BrokerM (List PreparedMember)
  | [] => pure []
  | (request, slotIndex) :: rest => do
    let submission ← liftExcept request.submission
    let info ← liftExcept (initialInfo request nowNs)
    let s ← get
    let id := s.expectedId slotIndex
    let control ← newControl id.raw info
    let members ← prepareBatch nowNs rest
    return ⟨request, slotIndex, submission, info, id, control⟩ :: members

def installBatch : List (PreparedMember × RequestId) → RequestBroker → RequestBroker
  | [], s => s
  | (member, id) :: rest, s =>
    installBatch rest (s.install member.slotIndex id member.control member.info member.request)

/-- The first slots that can be filled, in order. -/
def vacantSlots (count : Nat) (s : RequestBroker) : List Nat :=
  (indices BrokerSlot.isVacant s.slots).take count

def submitBatch (requests : List PreparedBrokerRequest) (nowNs : Nat) :
    BrokerM (List BrokerSubmission) := do
  if requests.isEmpty then throw (.runtime .emptyBatch)
  let s ← get
  if requests.length > s.runtime.limits.maxBatch then throw (.runtime .batchTooLarge)
  tryReserve requests.length
  let slotIndices := s.vacantSlots requests.length
  if slotIndices.length ≠ requests.length then throw (.runtime .systemFull)
  tryReserve requests.length
  tryReserve requests.length
  tryReserve requests.length
  tryReserve requests.length
  let members ← prepareBatch nowNs (requests.zip slotIndices)
  tryReserve requests.length
  tryReserve requests.length
  let runtimeIds ← onRuntime
    (RequestRuntime.submitBatch (members.map (·.submission)) requests.length nowNs)
  modify (installBatch (members.zip runtimeIds))
  return (members.zip runtimeIds).map fun (member, id) =>
    ⟨id, member.control, member.request.completionMode⟩

def synchronizedInfo (snapshot : KernelRequest RequestOperation BrokerPayload)
    (completionResult : Option CompletionResult) (info : RequestInfo) : RequestInfo :=
  let info := { info with
    state := snapshot.state.raw
    result := snapshot.status.raw
    startedNs := snapshot.startedAtNs.getD 0
    completedNs := snapshot.completedAtNs.getD 0
    resultFlags := 0
    bytesTransferred := 0 }
  if isTerminal snapshot.state then
    let info := match completionResult with
      | some result => { info with
          bytesTransferred := result.bytesTransferred
          resultFlags := result.resultFlags }
      | none => info
    let flags := info.resultFlags
    let flags := if snapshot.cancellationAcknowledged then
      flags ||| requestResultCancelAcknowledged else flags
    let flags := if snapshot.state = .timedOut then
      flags ||| requestResultDeadlineExpired else flags
    { info with resultFlags := flags }
  else info

def synchronizeInfo (id : RequestId) (s : RequestBroker) : RequestBroker :=
  match s.runtime.request id with
  | none => s
  | some snapshot => s.modifyEntry id fun entry =>
    { entry with info := synchronizedInfo snapshot entry.completionResult entry.info }

def synchronizeAllInfo (s : RequestBroker) : RequestBroker :=
  (List.range s.slots.length).foldl (fun s index =>
    match (s.slots[index]?).bind (·.entry) with
    | none => s
    | some entry => s.synchronizeInfo entry.id) s

def setDurabilityTicket (id : RequestId) (ticket : Nat) : BrokerM Unit := do
  let s ← get
  match s.entry id with
  | none => throw .invalidRequest
  | some entry =>
    match entry.durabilityTicket with
    | some existing => if existing ≠ ticket then throw .actionMismatch
    | none => set (s.modifyEntry id ({ · with durabilityTicket := some ticket }))

def advanceServiceOffset (id : RequestId) (bytes : Nat) : BrokerM Nat := do
  let s ← get
  match s.runtime.request id with
  | none => throw .invalidRequest
  | some snapshot =>
    if snapshot.state ≠ .active ∨ snapshot.resourceState ≠ .kernelOwned then
      throw (.runtime .invalidState)
    match s.entry id with
    | none => throw .invalidRequest
    | some entry =>
      let offset ← liftExcept (orOverflow (checkedAdd entry.serviceOffset bytes))
      if offset > entry.totalRequestedBytes then throw .resourceOverflow
      set (s.modifyEntry id ({ · with serviceOffset := offset }))
      return offset

def nextDispatch (nowNs : Nat) (s : RequestBroker) :
    Option (RequestDispatch RequestOperation BrokerPayload) × RequestBroker :=
  let (dispatch, runtime) := s.runtime.nextDispatch nowNs
  let s := { s with runtime := runtime }
  match dispatch with
  | none => (none, s)
  | some dispatch => (some dispatch, s.synchronizeInfo dispatch.id)

def requeueActive (id : RequestId) : BrokerM Unit := do
  onRuntime (RequestRuntime.requeueActive id)
  modify (synchronizeInfo id)

def markDeviceOwned (id : RequestId) : BrokerM Unit :=
  onRuntime (RequestRuntime.markDeviceOwned id)

def recordCompletion (completion : BrokerCompletion) : BrokerM Unit := do
  let s ← get
  let retainResult :=
    (s.runtime.request completion.id).any fun snapshot => !isTerminal snapshot.state
  onRuntime (RequestRuntime.recordCompletion
    ⟨completion.id, completion.status, completion.deviceReleased⟩)
  if retainResult then
    modify (modifyEntry completion.id fun entry =>
      if entry.completionResult.isNone then
        { entry with
          completionResult := some ⟨completion.bytesTransferred, completion.resultFlags⟩ }
      else entry)

def runWorker (nowNs : Nat) (budget : RequestWorkerBudget) (s : RequestBroker) :
    RequestWorkerReport × RequestBroker :=
  let (report, runtime) := s.runtime.runWorker nowNs budget
  (report, synchronizeAllInfo { s with runtime := runtime })

/-! ## Cancellation and the end of owners and devices -/

/-- `RequestControl::request_cancellation`. -/
def requestCancellation (control : RequestControlId) (s : RequestBroker) : RequestBroker :=
  if requestStateIsTerminal (s.controls.cell control).info.requestState then s
  else { s with controls := s.controls.modify control ({ · with cancelRequested := true }) }

def cancel (id : RequestId) (nowNs : Nat) : BrokerM Unit := do
  onRuntime (RequestRuntime.cancel id nowNs)
  let s ← get
  match s.entry id with
  | some entry => set (s.requestCancellation entry.control)
  | none => pure ()
  modify (synchronizeInfo id)

def acknowledgeCancel (id : RequestId) (nowNs : Nat) (deviceStopped : Bool) : BrokerM Unit := do
  onRuntime (RequestRuntime.acknowledgeCancel id nowNs deviceStopped)
  modify (synchronizeInfo id)

def acknowledgeDrain (id : RequestId) : BrokerM Unit :=
  onRuntime (RequestRuntime.acknowledgeDrain id)

/-- The calls that end requests in bulk. -/
def onAll (call : RequestRuntime RequestOperation BrokerPayload →
      Nat × RequestRuntime RequestOperation BrokerPayload) (s : RequestBroker) :
    Nat × RequestBroker :=
  let (affected, runtime) := call s.runtime
  (affected, synchronizeAllInfo { s with runtime := runtime })

def terminateThread (owner : RequestOwner) (nowNs : Nat) : RequestBroker → Nat × RequestBroker :=
  onAll (RequestRuntime.terminateThread owner nowNs)

def terminateProcess (processId nowNs : Nat) : RequestBroker → Nat × RequestBroker :=
  onAll (RequestRuntime.terminateProcess processId nowNs)

def removeDevice (device : RequestDevice) (nowNs : Nat) (ownershipStopped : Bool) :
    RequestBroker → Nat × RequestBroker :=
  onAll (RequestRuntime.removeDevice device nowNs ownershipStopped)

def resetDevice (device : RequestDevice) (nowNs : Nat) : RequestBroker → Nat × RequestBroker :=
  onAll (RequestRuntime.resetDevice device nowNs)

def beginShutdown (nowNs : Nat) : RequestBroker → Nat × RequestBroker :=
  onAll (RequestRuntime.beginShutdown nowNs)

def resumeAfterShutdownCancel (s : RequestBroker) : RequestBroker :=
  { s with runtime := s.runtime.resumeAfterShutdownCancel }

/-! ## Actions -/

/-- `RequestControl::publish_terminal`. -/
def controlPublishTerminal (control : RequestControlId) (info : RequestInfo) (s : RequestBroker) :
    Bool × RequestBroker :=
  if !requestStateIsTerminal info.requestState then (false, s)
  else if requestStateIsTerminal (s.controls.cell control).info.requestState then (false, s)
  else (true, { s with controls := s.controls.modify control ({ · with info := info }) })

/-- Publish the metadata of an entry, once. -/
def attemptPublication (entry : BrokerEntry) (s : RequestBroker) : Bool × RequestBroker :=
  let s := s.modifyEntry entry.id ({ · with terminalPublicationAttempted := true })
  let (published, s) := s.controlPublishTerminal entry.control entry.info
  (published, if published then
      { s with publishedBytes := saturatingAdd s.publishedBytes entry.info.bytesTransferred }
    else s)

def publishTerminal (id : RequestId) (state : RequestState) (status : Status)
    (completedAtNs : Nat) : BrokerM Bool := do
  let s ← get
  match s.runtime.request id with
  | none => throw .invalidRequest
  | some snapshot =>
    if snapshot.state ≠ state ∨ snapshot.status ≠ status ∨
        snapshot.completedAtNs ≠ some completedAtNs ∨ isTerminal state = false then
      throw .actionMismatch
    let s := s.synchronizeInfo id
    set s
    match s.entry id with
    | none => throw .invalidRequest
    | some entry =>
      if entry.terminalPublicationAttempted then return false
      let (published, s) := s.attemptPublication entry
      set s
      return published

/-- Let the resources of the request be taken. -/
def dispatchRelease (id : RequestId) (owner : RequestOwner) (resources : RequestResources) :
    BrokerM Unit := do
  let s ← get
  match s.runtime.request id with
  | none => throw .invalidRequest
  | some snapshot =>
    match s.entry id with
    | none => throw .invalidRequest
    | some entry =>
      if entry.owner ≠ owner ∨ snapshot.resources ≠ resources then throw .actionMismatch
      set (s.modifyEntry id ({ · with releaseDispatched := true }))

def performAction : RequestAction → BrokerM Unit
  | .publishTerminal id state status completedAtNs => do
    let _ ← publishTerminal id state status completedAtNs
  | .releaseResources id owner resources => dispatchRelease id owner resources
  | .cancelDevice _ _ _ => pure ()

def popAction : BrokerM (Option RequestAction) := do
  let s ← get
  let (action, runtime) := s.runtime.nextAction
  set { s with runtime := runtime }
  match action with
  | none => return none
  | some action =>
    performAction action
    return some action

def retireEntryIfRuntimeDid (id : RequestId) (s : RequestBroker) : RequestBroker :=
  match s.runtime.request id with
  | some _ => s
  | none =>
    match s.entryIndex id with
    | none => s
    | some index =>
      { s with slots := s.slots.modify index fun slot =>
          if slot.generation + 1 ≤ u32Max then
            { slot with generation := slot.generation + 1, entry := none }
          else { slot with retired := true, entry := none } }

def takeExternalResources (id : RequestId) : BrokerM ReleasedBrokerResources := do
  let s ← get
  match s.entry id with
  | none => throw .invalidRequest
  | some entry =>
    if !entry.releaseDispatched then throw .releaseNotDispatched
    if entry.buffers.isNone then throw .resourcesAlreadyTaken
    onRuntime (RequestRuntime.acknowledgeResourceRelease id)
    let s ← get
    match (s.entry id).bind (·.buffers) with
    | none => throw .resourcesAlreadyTaken
    | some buffers =>
      set ((s.modifyEntry id ({ · with buffers := none })).retireEntryIfRuntimeDid id)
      return ⟨id, entry.owner, buffers⟩

end RequestBroker

end Ginkgo.Kernel.Request
