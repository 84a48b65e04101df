import Ginkgo.Lib.Fallible
import Ginkgo.Lib.IndexedHeap
import Ginkgo.Lib.Words
import Ginkgo.Lib.Transition
import Ginkgo.Sysapi
import Mathlib.Data.Prod.Lex

/-!
# The request runtime

A request lives in a slot of a fixed table and is named by the slot's index and the
generation of its use.  Requests against one target wait in the FIFO of that target, and
at most one of them is active.  Completions are recorded and applied later by a worker,
which then times out what is due.  What the rest of the kernel has to do is put into a
queue of actions.

Of the diagnostics only those are kept that the runtime reads back or that count what it
holds now.  `expect` never fails here; where the source would panic, the model leaves the
state alone.
-/

namespace Ginkgo.Kernel.Request

open Ginkgo.Lib Ginkgo.Sysapi

/-! ## Identities -/

structure RequestId where
  raw : Nat
  deriving DecidableEq

namespace RequestId

def generation (id : RequestId) : Nat := id.raw >>> tagBits

def encodedIndex (id : RequestId) : Nat := id.raw &&& tagMask

def isValid (id : RequestId) : Bool :=
  id.raw != 0 && id.generation != 0 && id.encodedIndex != 0

def index (id : RequestId) : Option Nat :=
  if id.encodedIndex = 0 then none else some (id.encodedIndex - 1)

def fromParts (index generation : Nat) : RequestId := ⟨packTag index generation⟩

end RequestId

structure RequestOwner where
  processId : Nat
  threadId : Nat
  deriving DecidableEq

structure RequestTarget where
  raw : Nat
  deriving DecidableEq

structure RequestDevice where
  raw : Nat
  deriving DecidableEq

@[ext] structure RequestResources where
  copiedBytes : Nat := 0
  pinnedPages : Nat := 0
  sharedBytes : Nat := 0
  deriving DecidableEq

namespace RequestResources

def checkedAdd (a b : RequestResources) : Option RequestResources := do
  return {
    copiedBytes := ← Lib.checkedAdd a.copiedBytes b.copiedBytes
    pinnedPages := ← Lib.checkedAdd a.pinnedPages b.pinnedPages
    sharedBytes := ← Lib.checkedAdd a.sharedBytes b.sharedBytes }

def saturatingAdd (a b : RequestResources) : RequestResources where
  copiedBytes := Lib.saturatingAdd a.copiedBytes b.copiedBytes
  pinnedPages := Lib.saturatingAdd a.pinnedPages b.pinnedPages
  sharedBytes := Lib.saturatingAdd a.sharedBytes b.sharedBytes

def saturatingSub (a b : RequestResources) : RequestResources where
  copiedBytes := a.copiedBytes - b.copiedBytes
  pinnedPages := a.pinnedPages - b.pinnedPages
  sharedBytes := a.sharedBytes - b.sharedBytes

end RequestResources

structure RequestSubmission (O P : Type) where
  owner : RequestOwner
  target : RequestTarget
  device : Option RequestDevice
  operation : O
  servicePayload : P
  deadlineNs : Option Nat
  resources : RequestResources
  deriving DecidableEq

/-! ## Limits -/

def requestMaxBatch : Nat := 16
def actionsPerRequest : Nat := 3

structure RequestLimits where
  systemCapacity : Nat
  perOwnerRequests : Nat
  perTargetRequests : Nat
  maxBatch : Nat
  perRequest : RequestResources
  perOwner : RequestResources
  system : RequestResources
  deferredCompletionCapacity : Nat
  deriving DecidableEq

namespace RequestLimits

def isValid (limits : RequestLimits) : Bool :=
  limits.systemCapacity ≠ 0 && limits.systemCapacity < u32Max && limits.perOwnerRequests ≠ 0 &&
    limits.perOwnerRequests ≤ limits.systemCapacity &&
    limits.perTargetRequests ≠ 0 &&
    limits.perTargetRequests ≤ limits.systemCapacity &&
    limits.maxBatch ≠ 0 &&
    limits.maxBatch ≤ limits.systemCapacity &&
    limits.maxBatch ≤ requestMaxBatch &&
    limits.perRequest.copiedBytes ≤ limits.perOwner.copiedBytes &&
    limits.perOwner.copiedBytes ≤ limits.system.copiedBytes &&
    limits.perRequest.pinnedPages ≤ limits.perOwner.pinnedPages &&
    limits.perOwner.pinnedPages ≤ limits.system.pinnedPages &&
    limits.perRequest.sharedBytes ≤ limits.perOwner.sharedBytes &&
    limits.perOwner.sharedBytes ≤ limits.system.sharedBytes &&
    limits.deferredCompletionCapacity ≠ 0

end RequestLimits

inductive RequestError
  | invalidLimits
  | outOfMemory
  | quiescing
  | emptyBatch
  | batchTooLarge
  | outputTooSmall
  | systemFull
  | ownerLimit
  | targetLimit
  | copiedBytesLimit
  | pinnedPagesLimit
  | sharedBytesLimit
  | completionQueueFull
  | invalidRequest
  | invalidState
  | releaseNotDispatched
  deriving DecidableEq, Repr

/-! ## Requests and actions -/

inductive RequestResourceState
  | kernelOwned
  | deviceOwned
  | drainPending
  | releasePending
  | released
  deriving DecidableEq, Repr

/-- The device may still reach the resources. -/
def RequestResourceState.isDraining : RequestResourceState → Bool
  | .deviceOwned | .drainPending => true
  | _ => false

inductive RequestCancelReason
  | explicit
  | deadline
  | ownerThreadTerminated
  | ownerProcessTerminated
  | shutdown
  deriving DecidableEq, Repr

inductive RequestAction
  | publishTerminal (id : RequestId) (state : RequestState) (status : Status) (completedAtNs : Nat)
  | cancelDevice (id : RequestId) (device : Option RequestDevice) (reason : RequestCancelReason)
  | releaseResources (id : RequestId) (owner : RequestOwner) (resources : RequestResources)
  deriving DecidableEq

def RequestAction.id : RequestAction → RequestId
  | .publishTerminal id _ _ _ => id
  | .cancelDevice id _ _ => id
  | .releaseResources id _ _ => id

def isTerminal : RequestState → Bool
  | .completed | .timedOut | .canceled | .failed | .ownerTerminated => true
  | _ => false

structure RequestDispatch (O P : Type) where
  id : RequestId
  owner : RequestOwner
  target : RequestTarget
  device : Option RequestDevice
  operation : O
  servicePayload : P
  deadlineNs : Option Nat
  resources : RequestResources
  deriving DecidableEq

structure DeferredCompletion where
  id : RequestId
  status : Status
  deviceReleased : Bool
  deriving DecidableEq

structure RequestWorkerBudget where
  completions : Nat
  deadlines : Nat
  deriving DecidableEq

structure RequestWorkerReport where
  completions : Nat := 0
  deadlines : Nat := 0
  completionBudgetExhausted : Bool := false
  deadlineBudgetExhausted : Bool := false
  deriving DecidableEq

structure KernelRequest (O P : Type) where
  id : RequestId
  owner : RequestOwner
  target : RequestTarget
  device : Option RequestDevice
  operation : O
  servicePayload : P
  state : RequestState
  resourceState : RequestResourceState
  status : Status
  deadlineNs : Option Nat
  deadlineHeapIndex : Option Nat
  submittedAtNs : Nat
  startedAtNs : Option Nat
  completedAtNs : Option Nat
  resources : RequestResources
  cancellationRequested : Bool
  cancellationAcknowledged : Bool
  cancelActionQueued : Bool
  cancelActionDispatched : Bool
  terminalActionQueued : Bool
  terminalPublicationDispatched : Bool
  releaseActionQueued : Bool
  resourceReleaseDispatched : Bool
  deriving DecidableEq

/-- A request as it is submitted. -/
def KernelRequest.pending {O P : Type} (id : RequestId) (submission : RequestSubmission O P)
    (nowNs : Nat) : KernelRequest O P where
  id := id
  owner := submission.owner
  target := submission.target
  device := submission.device
  operation := submission.operation
  servicePayload := submission.servicePayload
  state := .pending
  resourceState := .kernelOwned
  status := .shouldWait
  deadlineNs := submission.deadlineNs
  deadlineHeapIndex := none
  submittedAtNs := nowNs
  startedAtNs := none
  completedAtNs := none
  resources := submission.resources
  cancellationRequested := false
  cancellationAcknowledged := false
  cancelActionQueued := false
  cancelActionDispatched := false
  terminalActionQueued := false
  terminalPublicationDispatched := false
  releaseActionQueued := false
  resourceReleaseDispatched := false

/-- The request in its terminal state.  A device that reaches the resources still has to stop. -/
def KernelRequest.concluded {O P : Type} (state : RequestState) (status : Status) (nowNs : Nat)
    (request : KernelRequest O P) : KernelRequest O P :=
  { request with
    state := state
    status := status
    completedAtNs := some nowNs
    resourceState := if request.resourceState = .deviceOwned then .drainPending
      else request.resourceState }

structure RequestSlot (O P : Type) where
  generation : Nat
  retired : Bool
  request : Option (KernelRequest O P)
  deriving DecidableEq

def RequestSlot.vacant {O P : Type} : RequestSlot O P := ⟨1, false, none⟩

structure TargetQueue where
  target : Option RequestTarget
  active : Option RequestId
  queued : List RequestId
  deriving DecidableEq

namespace TargetQueue

def vacant : TargetQueue := ⟨none, none, []⟩

def isIdle (queue : TargetQueue) : Bool := queue.active.isNone && queue.queued.isEmpty

end TargetQueue

structure DeadlineEntry where
  deadlineNs : Nat
  id : RequestId
  deriving DecidableEq

def DeadlineEntry.orderingKey (entry : DeadlineEntry) : Nat ×ₗ Nat :=
  toLex (entry.deadlineNs, entry.id.raw)

structure RequestRuntimeDiagnostics where
  liveRequests : Nat := 0
  queuedRequests : Nat := 0
  activeRequests : Nat := 0
  /-- `copied_bytes`, `pinned_pages` and `shared_bytes`. -/
  resources : RequestResources := {}
  deriving DecidableEq

structure RequestRuntime (O P : Type) where
  limits : RequestLimits
  slots : List (RequestSlot O P)
  targets : List TargetQueue
  targetCursor : Nat
  deadlines : List DeadlineEntry
  deferredCompletions : List DeferredCompletion
  actions : List RequestAction
  accepting : Bool
  diagnostics : RequestRuntimeDiagnostics
  deriving DecidableEq

namespace RequestRuntime

variable {O P : Type}

/-- Reserve the FIFO of each target. -/
def allocTargets (perTarget : Nat) : Nat → EStateM RequestError Budget Unit
  | 0 => pure ()
  | count + 1 => do
    allocCapacity .outOfMemory perTarget
    allocTargets perTarget count

/-- The tables before the first submission. -/
def vacant (limits : RequestLimits) : RequestRuntime O P where
  limits := limits
  slots := List.replicate limits.systemCapacity .vacant
  targets := List.replicate limits.systemCapacity .vacant
  targetCursor := 0
  deadlines := []
  deferredCompletions := []
  actions := []
  accepting := true
  diagnostics := {}

def tryNewWithLimits (limits : RequestLimits) :
    EStateM RequestError Budget (RequestRuntime O P) := do
  if !limits.isValid then throw .invalidLimits
  allocCapacity .outOfMemory limits.systemCapacity
  allocCapacity .outOfMemory limits.systemCapacity
  allocTargets limits.perTargetRequests limits.systemCapacity
  allocCapacity .outOfMemory limits.systemCapacity
  allocCapacity .outOfMemory limits.deferredCompletionCapacity
  match checkedMul limits.systemCapacity actionsPerRequest with
  | none => throw .invalidLimits
  | some actionCapacity =>
    allocCapacity .outOfMemory actionCapacity
    return vacant limits

/-! ## Access -/

def validRequestIndex (id : RequestId) (s : RequestRuntime O P) : Option Nat :=
  match id.index with
  | none => none
  | some index =>
    match s.slots[index]? with
    | none => none
    | some slot =>
      if id.isValid && !slot.retired && slot.generation == id.generation &&
          slot.request.any (fun request => request.id == id) then some index
      else none

def requestAt (index : Nat) (s : RequestRuntime O P) : Option (KernelRequest O P) :=
  (s.slots[index]?).bind (·.request)

def request (id : RequestId) (s : RequestRuntime O P) : Option (KernelRequest O P) :=
  (s.validRequestIndex id).bind s.requestAt

def modifyRequest (index : Nat) (f : KernelRequest O P → KernelRequest O P)
    (s : RequestRuntime O P) : RequestRuntime O P :=
  { s with slots := s.slots.modify index fun slot =>
      { slot with request := slot.request.map f } }

def modifyTarget (index : Nat) (f : TargetQueue → TargetQueue) (s : RequestRuntime O P) :
    RequestRuntime O P :=
  { s with targets := s.targets.modify index f }

def isVacant (slot : RequestSlot O P) : Bool := slot.request.isNone && !slot.retired

def targetIndex (target : RequestTarget) (s : RequestRuntime O P) : Option Nat :=
  s.targets.findIdx? fun queue => queue.target == some target

def targetIndexOrVacant (target : RequestTarget) (s : RequestRuntime O P) : Option Nat :=
  (s.targetIndex target).or (s.targets.findIdx? fun queue => queue.target.isNone)

/-- What a request still owes its owner and the system. -/
def charged (request : KernelRequest O P) : RequestResources :=
  if request.resourceState = .released then {} else request.resources

def ownerUsage (owner : RequestOwner) (s : RequestRuntime O P) : Nat × RequestResources :=
  (s.slots.filterMap (·.request)).foldl (fun (count, resources) request =>
      if request.owner = owner then
        (saturatingAdd count 1, resources.saturatingAdd (charged request))
      else (count, resources)) (0, {})

def targetRequestCount (target : RequestTarget) (s : RequestRuntime O P) : Nat :=
  ((s.slots.filterMap (·.request)).filter fun request => request.target = target).length

def deadlineHeap : IndexedHeap.Store (RequestRuntime O P) DeadlineEntry where
  entries s := s.deadlines
  withEntries entries s := { s with deadlines := entries }
  setPosition entry position s :=
    match s.validRequestIndex entry.id with
    | none => s
    | some index => s.modifyRequest index fun request =>
      { request with deadlineHeapIndex := position }

def pushDeadline (entry : DeadlineEntry) (s : RequestRuntime O P) : RequestRuntime O P :=
  IndexedHeap.push deadlineHeap DeadlineEntry.orderingKey entry s

def removeDeadlineAt (index : Nat) (s : RequestRuntime O P) : RequestRuntime O P :=
  IndexedHeap.removeAt deadlineHeap DeadlineEntry.orderingKey index s

def removeRequestDeadline (id : RequestId) (s : RequestRuntime O P) : RequestRuntime O P :=
  match (s.request id).bind (·.deadlineHeapIndex) with
  | some heapIndex => s.removeDeadlineAt heapIndex
  | none => s

def nextDeadlineNs (s : RequestRuntime O P) : Option Nat := s.deadlines.head?.map (·.deadlineNs)

/-! ## Submission -/

def chargeSubmission (resources : RequestResources) (s : RequestRuntime O P) : RequestRuntime O P :=
  { s with diagnostics := { s.diagnostics with
      liveRequests := saturatingAdd s.diagnostics.liveRequests 1
      queuedRequests := saturatingAdd s.diagnostics.queuedRequests 1
      resources := s.diagnostics.resources.saturatingAdd resources } }

def unchargeResources (resources : RequestResources) (s : RequestRuntime O P) :
    RequestRuntime O P :=
  { s with diagnostics := { s.diagnostics with
      resources := s.diagnostics.resources.saturatingSub resources } }

/-- The first of the three limits that is exceeded. -/
def checkResources (resources limit : RequestResources) : Except RequestError Unit :=
  if resources.copiedBytes > limit.copiedBytes then .error .copiedBytesLimit
  else if resources.pinnedPages > limit.pinnedPages then .error .pinnedPagesLimit
  else if resources.sharedBytes > limit.sharedBytes then .error .sharedBytesLimit
  else .ok ()

/-- Add up a batch, each member within the limit of one request. -/
def batchResources (limit : RequestResources) :
    List (RequestSubmission O P) → RequestResources → Except RequestError RequestResources
  | [], total => .ok total
  | submission :: rest, total => do
    checkResources submission.resources limit
    match total.checkedAdd submission.resources with
    | none => .error .systemFull
    | some total => batchResources limit rest total

/-- Add up the members of a batch that one owner submits. -/
def addOwnerResources : List (RequestSubmission O P) → RequestResources →
    Except RequestError RequestResources
  | [], total => .ok total
  | candidate :: rest, total =>
    match total.checkedAdd candidate.resources with
    | none => .error .ownerLimit
    | some total => addOwnerResources rest total

def preflightOwner (submissions : List (RequestSubmission O P)) (owner : RequestOwner)
    (s : RequestRuntime O P) : Except RequestError Unit := do
  let (existingCount, existingResources) := s.ownerUsage owner
  let candidates := submissions.filter fun candidate => candidate.owner = owner
  let ownerResources ← addOwnerResources candidates existingResources
  if saturatingAdd existingCount candidates.length > s.limits.perOwnerRequests then
    .error .ownerLimit
  checkResources ownerResources s.limits.perOwner

/-- Each owner of the batch once, at its first member. -/
def preflightOwners (submissions : List (RequestSubmission O P)) (s : RequestRuntime O P) :
    List (RequestSubmission O P) → List (RequestSubmission O P) → Except RequestError Unit
  | _, [] => .ok ()
  | previous, submission :: rest => do
    if previous.any fun earlier => earlier.owner = submission.owner then
      preflightOwners submissions s (previous ++ [submission]) rest
    else
      s.preflightOwner submissions submission.owner
      preflightOwners submissions s (previous ++ [submission]) rest

/-- Each target of the batch once; returns how many of them have no queue. -/
def preflightTargets (submissions : List (RequestSubmission O P)) (s : RequestRuntime O P) :
    List (RequestSubmission O P) → List (RequestSubmission O P) → Except RequestError Nat
  | _, [] => .ok 0
  | previous, submission :: rest => do
    if previous.any fun earlier => earlier.target = submission.target then
      preflightTargets submissions s (previous ++ [submission]) rest
    else
      let batch :=
        (submissions.filter fun candidate => candidate.target = submission.target).length
      if saturatingAdd (s.targetRequestCount submission.target) batch >
          s.limits.perTargetRequests then
        .error .targetLimit
      let newTargets ← preflightTargets submissions s (previous ++ [submission]) rest
      return if (s.targetIndex submission.target).isNone then newTargets + 1 else newTargets

def preflightBatch (submissions : List (RequestSubmission O P)) (s : RequestRuntime O P) :
    Except RequestError Unit := do
  let vacantSlots := (s.slots.filter isVacant).length
  if submissions.length > vacantSlots then .error .systemFull
  match checkedAdd s.diagnostics.liveRequests submissions.length with
  | none => .error .systemFull
  | some count => if count > s.limits.systemCapacity then .error .systemFull
  let batch ← batchResources s.limits.perRequest submissions {}
  match s.diagnostics.resources.checkedAdd batch with
  | none => .error .systemFull
  | some systemResources => checkResources systemResources s.limits.system
  preflightOwners submissions s [] submissions
  let newTargets ← preflightTargets submissions s [] submissions
  let vacantTargets := (s.targets.filter fun queue => queue.target.isNone).length
  if newTargets > vacantTargets then .error .systemFull

/-- Put a request into a slot and at the end of the queue of its target. -/
def enter (slotIndex targetIndex : Nat) (id : RequestId) (submission : RequestSubmission O P)
    (nowNs : Nat) (s : RequestRuntime O P) : RequestRuntime O P :=
  let s := s.modifyTarget targetIndex fun queue =>
    if queue.target.isNone then { queue with target := some submission.target } else queue
  let s := { s with slots := s.slots.modify slotIndex fun slot =>
    { slot with request := some (.pending id submission nowNs) } }
  s.modifyTarget targetIndex fun queue => { queue with queued := queue.queued ++ [id] }

def armDeadline (id : RequestId) (deadlineNs : Option Nat) (s : RequestRuntime O P) :
    RequestRuntime O P :=
  match deadlineNs with
  | some deadlineNs => s.pushDeadline ⟨deadlineNs, id⟩
  | none => s

/-- One round of the commit loop; `none` where it would panic. -/
def submitOne (submission : RequestSubmission O P) (nowNs : Nat) (s : RequestRuntime O P) :
    Option (RequestId × RequestRuntime O P) := do
  let slotIndex ← s.slots.findIdx? isVacant
  let slot ← s.slots[slotIndex]?
  let id := RequestId.fromParts slotIndex slot.generation
  let targetIndex ← s.targetIndexOrVacant submission.target
  let s := s.enter slotIndex targetIndex id submission nowNs
  let s := s.armDeadline id submission.deadlineNs
  return (id, s.chargeSubmission submission.resources)

def commitBatch (nowNs : Nat) : List (RequestSubmission O P) → RequestRuntime O P →
    Option (List RequestId × RequestRuntime O P)
  | [], s => some ([], s)
  | submission :: rest, s => do
    let (id, s) ← s.submitOne submission nowNs
    let (ids, s) ← commitBatch nowNs rest s
    return (id :: ids, s)

/-- `outputLength` is the length of the slice that receives the names. -/
def submitBatch (submissions : List (RequestSubmission O P)) (outputLength nowNs : Nat)
    (s : RequestRuntime O P) : Except RequestError (List RequestId) × RequestRuntime O P :=
  if submissions.isEmpty then (.error .emptyBatch, s)
  else if submissions.length > s.limits.maxBatch then (.error .batchTooLarge, s)
  else if outputLength < submissions.length then (.error .outputTooSmall, s)
  else if !s.accepting then (.error .quiescing, s)
  else
    match s.preflightBatch submissions with
    | .error error => (.error error, s)
    | .ok () =>
      match commitBatch nowNs submissions s with
      | some (ids, s) => (.ok ids, s)
      | none => (.error .systemFull, s)

def submit (submission : RequestSubmission O P) (nowNs : Nat) (s : RequestRuntime O P) :
    Except RequestError (List RequestId) × RequestRuntime O P :=
  s.submitBatch [submission] 1 nowNs

def releaseIdleTarget (index : Nat) (s : RequestRuntime O P) : RequestRuntime O P :=
  s.modifyTarget index fun queue => if queue.isIdle then { queue with target := none } else queue

def start (index slotIndex : Nat) (id : RequestId) (nowNs : Nat) (s : RequestRuntime O P) :
    RequestRuntime O P :=
  let s := s.modifyRequest slotIndex fun request =>
    { request with
      state := .active
      startedAtNs := request.startedAtNs.or (some nowNs) }
  let s := s.modifyTarget index fun queue => { queue with active := some id }
  { s with diagnostics := { s.diagnostics with
      queuedRequests := s.diagnostics.queuedRequests - 1
      activeRequests := saturatingAdd s.diagnostics.activeRequests 1 } }

/-- The remaining rounds over the targets, from the cursor on. -/
def nextDispatchFrom : Nat → Nat → RequestRuntime O P →
    Option (RequestDispatch O P) × RequestRuntime O P
  | 0, _, s => (none, s)
  | rounds + 1, nowNs, s =>
    let index := s.targetCursor
    let s := { s with targetCursor := (s.targetCursor + 1) % s.targets.length }
    match s.targets[index]? with
    | none => nextDispatchFrom rounds nowNs s
    | some queue =>
      if queue.active.isSome then nextDispatchFrom rounds nowNs s
      else
        match queue.queued with
        | [] => nextDispatchFrom rounds nowNs (s.releaseIdleTarget index)
        | id :: rest =>
          let s := s.modifyTarget index fun queue => { queue with queued := rest }
          match s.validRequestIndex id with
          | none => nextDispatchFrom rounds nowNs s
          | some slotIndex =>
            match s.requestAt slotIndex with
            | none => nextDispatchFrom rounds nowNs s
            | some request =>
              if request.state ≠ .pending then nextDispatchFrom rounds nowNs s
              else
                (some {
                  id := id
                  owner := request.owner
                  target := request.target
                  device := request.device
                  operation := request.operation
                  servicePayload := request.servicePayload
                  deadlineNs := request.deadlineNs
                  resources := request.resources },
                  s.start index slotIndex id nowNs)

def nextDispatch (nowNs : Nat) (s : RequestRuntime O P) :
    Option (RequestDispatch O P) × RequestRuntime O P :=
  nextDispatchFrom s.targets.length nowNs s

def requeueActive (id : RequestId) (s : RequestRuntime O P) :
    Except RequestError Unit × RequestRuntime O P :=
  match s.validRequestIndex id with
  | none => (.error .invalidRequest, s)
  | some slotIndex =>
    match s.requestAt slotIndex with
    | none => (.error .invalidRequest, s)
    | some request =>
      if request.state ≠ .active || request.resourceState ≠ .kernelOwned then
        (.error .invalidState, s)
      else
        match s.targetIndex request.target with
        | none => (.error .invalidState, s)
        | some targetIndex =>
          if ((s.targets[targetIndex]?).bind (·.active)) ≠ some id then
            (.error .invalidState, s)
          else
            let s := s.modifyRequest slotIndex fun request =>
              { request with state := .pending }
            let s := s.modifyTarget targetIndex fun queue =>
              { queue with active := none, queued := queue.queued ++ [id] }
            (.ok (), { s with diagnostics := { s.diagnostics with
              activeRequests := s.diagnostics.activeRequests - 1
              queuedRequests := saturatingAdd s.diagnostics.queuedRequests 1 } })

def markDeviceOwned (id : RequestId) (s : RequestRuntime O P) :
    Except RequestError Unit × RequestRuntime O P :=
  match s.validRequestIndex id with
  | none => (.error .invalidRequest, s)
  | some index =>
    match s.requestAt index with
    | none => (.error .invalidRequest, s)
    | some request =>
      if !(request.state = .active || request.state = .cancelPending) ||
          request.resourceState ≠ .kernelOwned then (.error .invalidState, s)
      else
        (.ok (), s.modifyRequest index fun request =>
          { request with resourceState := .deviceOwned })

def recordCompletion (completion : DeferredCompletion) (s : RequestRuntime O P) :
    Except RequestError Unit × RequestRuntime O P :=
  if s.deferredCompletions.length ≥ s.limits.deferredCompletionCapacity then
    (.error .completionQueueFull, s)
  else (.ok (), { s with deferredCompletions := s.deferredCompletions ++ [completion] })

def pushAction (action : RequestAction) (s : RequestRuntime O P) : RequestRuntime O P :=
  { s with actions := s.actions ++ [action] }

def queueTerminalAction (id : RequestId) (s : RequestRuntime O P) : RequestRuntime O P :=
  match s.validRequestIndex id with
  | none => s
  | some index =>
    match s.requestAt index with
    | none => s
    | some request =>
      if request.terminalActionQueued || request.terminalPublicationDispatched then s
      else
        let s := s.modifyRequest index fun request =>
          { request with terminalActionQueued := true }
        s.pushAction (.publishTerminal id request.state request.status
          (request.completedAtNs.getD request.submittedAtNs))

def queueCancelAction (id : RequestId) (reason : RequestCancelReason) (s : RequestRuntime O P) :
    RequestRuntime O P :=
  match s.validRequestIndex id with
  | none => s
  | some index =>
    match s.requestAt index with
    | none => s
    | some request =>
      if request.cancelActionQueued || request.cancelActionDispatched then s
      else
        let s := s.modifyRequest index fun request =>
          { request with cancelActionQueued := true }
        s.pushAction (.cancelDevice id request.device reason)

def queueReleaseIfPossible (id : RequestId) (s : RequestRuntime O P) : RequestRuntime O P :=
  match s.validRequestIndex id with
  | none => s
  | some index =>
    match s.requestAt index with
    | none => s
    | some request =>
      if !isTerminal request.state || request.resourceState ≠ .kernelOwned ||
          request.releaseActionQueued || request.resourceReleaseDispatched then s
      else
        let s := s.modifyRequest index fun request =>
          { request with
            resourceState := .releasePending
            releaseActionQueued := true }
        s.pushAction (.releaseResources id request.owner request.resources)

def isCancelOf (id : RequestId) : RequestAction → Bool
  | .cancelDevice actionId _ _ => actionId = id
  | _ => false

def removeCancelAction (id : RequestId) (s : RequestRuntime O P) : RequestRuntime O P :=
  match s.validRequestIndex id with
  | none => s
  | some index =>
    match s.requestAt index with
    | none => s
    | some request =>
      if !request.cancelActionQueued then s
      else
        let s := { s with actions := s.actions.filter fun action => !isCancelOf id action }
        s.modifyRequest index fun request => { request with cancelActionQueued := false }

/-! ## Termination -/

/-- Take a request out of the FIFO of its target. -/
def dequeue (target : RequestTarget) (id : RequestId) (s : RequestRuntime O P) :
    RequestRuntime O P :=
  match s.targetIndex target with
  | none => s
  | some index =>
    match s.targets[index]? with
    | none => s
    | some queue =>
      let queued := queue.queued.filter fun other => other ≠ id
      let s := s.modifyTarget index fun queue => { queue with queued := queued }
      let s := if queued.length ≠ queue.queued.length then
          { s with diagnostics := { s.diagnostics with
              queuedRequests := s.diagnostics.queuedRequests - 1 } }
        else s
      s.releaseIdleTarget index

def removeRequestFromPendingQueue (id : RequestId) (s : RequestRuntime O P) : RequestRuntime O P :=
  match s.request id with
  | none => s
  | some request => s.dequeue request.target id

/-- Clear the active request of a target, if it is `id`. -/
def clearActive (index : Nat) (id : RequestId) (started : Bool) (s : RequestRuntime O P) :
    RequestRuntime O P :=
  if ((s.targets[index]?).bind (·.active)) = some id then
    let s := s.modifyTarget index fun queue => { queue with active := none }
    if started then
      { s with diagnostics := { s.diagnostics with
          activeRequests := s.diagnostics.activeRequests - 1 } }
    else s
  else s

def releaseTargetIfSafe (id : RequestId) (s : RequestRuntime O P) : RequestRuntime O P :=
  match s.request id with
  | none => s
  | some request =>
    if !isTerminal request.state || request.resourceState.isDraining then s
    else
      match s.targetIndex request.target with
      | none => s
      | some index =>
        (s.clearActive index id request.startedAtNs.isSome).releaseIdleTarget index

def finishTerminal (id : RequestId) (state : RequestState) (status : Status) (nowNs : Nat)
    (s : RequestRuntime O P) : RequestRuntime O P :=
  match s.validRequestIndex id with
  | none => s
  | some index =>
    if (s.requestAt index).any (fun request => isTerminal request.state) then s
    else
      let s := s.removeRequestFromPendingQueue id
      let s := s.removeRequestDeadline id
      let s := s.modifyRequest index (.concluded state status nowNs)
      let s := s.queueTerminalAction id
      let s := s.releaseTargetIfSafe id
      s.queueReleaseIfPossible id

def applyCompletion (completion : DeferredCompletion) (nowNs : Nat) (s : RequestRuntime O P) :
    RequestRuntime O P :=
  match s.validRequestIndex completion.id with
  | none => s
  | some index =>
    match s.requestAt index with
    | none => s
    | some request =>
      if isTerminal request.state then
        if completion.deviceReleased then
          let s := s.modifyRequest index fun request =>
            if request.resourceState.isDraining then
              { request with resourceState := .kernelOwned }
            else request
          let s := s.releaseTargetIfSafe completion.id
          s.queueReleaseIfPossible completion.id
        else s
      else
        let s := if request.state = .cancelPending then s.removeCancelAction completion.id
          else s
        let s := s.modifyRequest index fun request =>
          { request with
            state := .completing
            resourceState :=
              if completion.deviceReleased && request.resourceState.isDraining then
                .kernelOwned
              else if request.resourceState = .deviceOwned then .drainPending
              else request.resourceState }
        let terminal := if completion.status = .ok then .completed else .failed
        s.finishTerminal completion.id terminal completion.status nowNs

def applyTimeout (id : RequestId) (nowNs : Nat) (s : RequestRuntime O P) : RequestRuntime O P :=
  match s.validRequestIndex id with
  | none => s
  | some index =>
    let s := s.modifyRequest index fun request => { request with deadlineHeapIndex := none }
    match s.requestAt index with
    | none => s
    | some request =>
      if isTerminal request.state then s
      else
        let needsCancel := request.startedAtNs.isSome
        let s := s.modifyRequest index fun request =>
          { request with
            cancellationRequested := request.cancellationRequested || needsCancel }
        let s := if needsCancel then s.queueCancelAction id .deadline else s
        s.finishTerminal id .timedOut .timedOut nowNs

def requestCancel (id : RequestId) (reason : RequestCancelReason) (nowNs : Nat)
    (s : RequestRuntime O P) : Except RequestError Unit × RequestRuntime O P :=
  match s.validRequestIndex id with
  | none => (.error .invalidRequest, s)
  | some index =>
    match s.requestAt index with
    | none => (.error .invalidRequest, s)
    | some request =>
      if isTerminal request.state then (.error .invalidState, s)
      else if request.state = .cancelPending then (.ok (), s)
      else
        let s := s.modifyRequest index fun request =>
          { request with cancellationRequested := true }
        if request.state = .pending then
          let s := s.modifyRequest index fun request =>
            { request with cancellationAcknowledged := true }
          (.ok (), s.finishTerminal id .canceled .canceled nowNs)
        else
          let s := s.modifyRequest index fun request =>
            { request with state := .cancelPending }
          (.ok (), s.queueCancelAction id reason)

def cancel (id : RequestId) (nowNs : Nat) (s : RequestRuntime O P) :
    Except RequestError Unit × RequestRuntime O P :=
  s.requestCancel id .explicit nowNs

def acknowledgeCancel (id : RequestId) (nowNs : Nat) (deviceStopped : Bool)
    (s : RequestRuntime O P) : Except RequestError Unit × RequestRuntime O P :=
  match s.validRequestIndex id with
  | none => (.error .invalidRequest, s)
  | some index =>
    match s.requestAt index with
    | none => (.error .invalidRequest, s)
    | some request =>
      if !request.cancellationRequested then (.error .invalidState, s)
      else
        let s := s.modifyRequest index fun request =>
          { request with
            cancellationAcknowledged := true
            resourceState :=
              if deviceStopped && request.resourceState.isDraining then .kernelOwned
              else request.resourceState }
        if (s.request id).any (fun request => request.state == .cancelPending) then
          (.ok (), s.finishTerminal id .canceled .canceled nowNs)
        else (.ok (), s.queueReleaseIfPossible id)

def acknowledgeDrain (id : RequestId) (s : RequestRuntime O P) :
    Except RequestError Unit × RequestRuntime O P :=
  match s.validRequestIndex id with
  | none => (.error .invalidRequest, s)
  | some index =>
    match s.requestAt index with
    | none => (.error .invalidRequest, s)
    | some request =>
      if !request.resourceState.isDraining then (.error .invalidState, s)
      else
        let s := s.modifyRequest index fun request =>
          { request with resourceState := .kernelOwned }
        let s := s.releaseTargetIfSafe id
        (.ok (), s.queueReleaseIfPossible id)

/-- Apply recorded completions, within the budget; returns those it applied. -/
def drainCompletions (nowNs : Nat) : Nat → RequestRuntime O P →
    List DeferredCompletion × RequestRuntime O P
  | 0, s => ([], s)
  | budget + 1, s =>
    match s.deferredCompletions with
    | [] => ([], s)
    | completion :: rest =>
      let s := { s with deferredCompletions := rest }
      let (applied, s) := drainCompletions nowNs budget (s.applyCompletion completion nowNs)
      (completion :: applied, s)

/-- Time out what is due, within the budget; returns how many. -/
def expireDeadlines (nowNs : Nat) : Nat → RequestRuntime O P → Nat × RequestRuntime O P
  | 0, s => (0, s)
  | budget + 1, s =>
    match s.deadlines.head? with
    | none => (0, s)
    | some entry =>
      if entry.deadlineNs > nowNs then (0, s)
      else
        let s := s.removeDeadlineAt 0
        let (count, s) := expireDeadlines nowNs budget (s.applyTimeout entry.id nowNs)
        (count + 1, s)

def runWorker (nowNs : Nat) (budget : RequestWorkerBudget) (s : RequestRuntime O P) :
    RequestWorkerReport × RequestRuntime O P :=
  let (applied, s) := drainCompletions nowNs budget.completions s
  if !s.deferredCompletions.isEmpty then
    ({ completions := applied.length, completionBudgetExhausted := true }, s)
  else
    let (deadlines, s) := expireDeadlines nowNs budget.deadlines s
    ({ completions := applied.length
       deadlines := deadlines
       deadlineBudgetExhausted := s.deadlines.head?.any fun entry => entry.deadlineNs ≤ nowNs }, s)

/-! ## Sweeps over the slots -/

/-- Visit slots in order; returns how many were affected. -/
def sweep (visit : Nat → RequestRuntime O P → Bool × RequestRuntime O P) :
    List Nat → RequestRuntime O P → Nat × RequestRuntime O P
  | [], s => (0, s)
  | index :: rest, s =>
    let (affected, s) := visit index s
    let (count, s) := sweep visit rest s
    (if affected then count + 1 else count, s)

def terminateAt (selects : KernelRequest O P → Bool) (reason : RequestCancelReason) (nowNs : Nat)
    (index : Nat) (s : RequestRuntime O P) : Bool × RequestRuntime O P :=
  match s.requestAt index with
  | none => (false, s)
  | some request =>
    if !selects request || isTerminal request.state then (false, s)
    else
      let s := s.modifyRequest index fun request =>
        { request with cancellationRequested := true }
      let s := if request.state ≠ .pending then s.queueCancelAction request.id reason
        else s.modifyRequest index fun request =>
          { request with cancellationAcknowledged := true }
      (true, s.finishTerminal request.id .ownerTerminated .canceled nowNs)

def terminateMatching (selects : KernelRequest O P → Bool) (reason : RequestCancelReason)
    (nowNs : Nat) (s : RequestRuntime O P) : Nat × RequestRuntime O P :=
  sweep (terminateAt selects reason nowNs) (List.range s.slots.length) s

def terminateThread (owner : RequestOwner) (nowNs : Nat) (s : RequestRuntime O P) :
    Nat × RequestRuntime O P :=
  s.terminateMatching (fun request => request.owner = owner) .ownerThreadTerminated nowNs

def terminateProcess (processId : Nat) (nowNs : Nat) (s : RequestRuntime O P) :
    Nat × RequestRuntime O P :=
  s.terminateMatching (fun request => request.owner.processId = processId)
    .ownerProcessTerminated nowNs

def failAt (device : RequestDevice) (nowNs : Nat) (ownershipStopped : Bool) (index : Nat)
    (s : RequestRuntime O P) : Bool × RequestRuntime O P :=
  match s.requestAt index with
  | none => (false, s)
  | some request =>
    if request.device ≠ some device then (false, s)
    else if isTerminal request.state && !request.resourceState.isDraining then (false, s)
    else
      let s := s.removeCancelAction request.id
      let s := if ownershipStopped && request.resourceState.isDraining then
          s.modifyRequest index fun request => { request with resourceState := .kernelOwned }
        else s
      if isTerminal request.state then
        let s := s.releaseTargetIfSafe request.id
        (true, s.queueReleaseIfPossible request.id)
      else (true, s.finishTerminal request.id .failed .io nowNs)

def failDevice (device : RequestDevice) (nowNs : Nat) (ownershipStopped : Bool)
    (s : RequestRuntime O P) : Nat × RequestRuntime O P :=
  sweep (failAt device nowNs ownershipStopped) (List.range s.slots.length) s

def removeDevice (device : RequestDevice) (nowNs : Nat) (ownershipStopped : Bool)
    (s : RequestRuntime O P) : Nat × RequestRuntime O P :=
  s.failDevice device nowNs ownershipStopped

def resetDevice (device : RequestDevice) (nowNs : Nat) (s : RequestRuntime O P) :
    Nat × RequestRuntime O P :=
  s.failDevice device nowNs true

def shutdownAt (nowNs : Nat) (index : Nat) (s : RequestRuntime O P) : Bool × RequestRuntime O P :=
  match s.requestAt index with
  | none => (false, s)
  | some request =>
    if (s.request request.id).any (fun request => !isTerminal request.state) then
      let (result, s) := s.requestCancel request.id .shutdown nowNs
      (result.isOk, s)
    else (false, s)

def beginShutdown (nowNs : Nat) (s : RequestRuntime O P) : Nat × RequestRuntime O P :=
  let s := { s with accepting := false }
  sweep (shutdownAt nowNs) (List.range s.slots.length) s

def resumeAfterShutdownCancel (s : RequestRuntime O P) : RequestRuntime O P :=
  { s with accepting := true }

def releaseTargetAfterRetirement (request : KernelRequest O P) (s : RequestRuntime O P) :
    RequestRuntime O P :=
  match s.targetIndex request.target with
  | none => s
  | some index =>
    let s := s.clearActive index request.id request.startedAtNs.isSome
    let s := s.modifyTarget index fun queue =>
      { queue with queued := queue.queued.filter fun other => other ≠ request.id }
    s.releaseIdleTarget index

def retirable (request : KernelRequest O P) : Bool :=
  isTerminal request.state && request.terminalPublicationDispatched &&
    request.resourceState = .released && !request.cancelActionQueued &&
    !request.terminalActionQueued && !request.releaseActionQueued

def tryRetire (id : RequestId) (s : RequestRuntime O P) : RequestRuntime O P :=
  match s.validRequestIndex id with
  | none => s
  | some index =>
    match s.requestAt index with
    | none => s
    | some request =>
      if !retirable request then s
      else
        let s := { s with slots := s.slots.modify index fun slot =>
          { slot with request := none } }
        let s := s.removeRequestDeadline id
        let s := s.releaseTargetAfterRetirement request
        let s := { s with diagnostics := { s.diagnostics with
          liveRequests := s.diagnostics.liveRequests - 1 } }
        { s with slots := s.slots.modify index fun slot =>
            if slot.generation + 1 ≤ u32Max then { slot with generation := slot.generation + 1 }
            else { slot with retired := true } }

/-- Note on the request that the action was taken from the queue. -/
def dispatchAction (action : RequestAction) (request : KernelRequest O P) : KernelRequest O P :=
  match action with
  | .publishTerminal .. =>
    { request with terminalActionQueued := false, terminalPublicationDispatched := true }
  | .cancelDevice .. =>
    { request with cancelActionQueued := false, cancelActionDispatched := true }
  | .releaseResources .. =>
    { request with releaseActionQueued := false, resourceReleaseDispatched := true }

def nextAction (s : RequestRuntime O P) : Option RequestAction × RequestRuntime O P :=
  match s.actions with
  | [] => (none, s)
  | action :: rest =>
    let s := { s with actions := rest }
    let s := match s.validRequestIndex action.id with
      | none => s
      | some index => s.modifyRequest index (dispatchAction action)
    (some action, s.tryRetire action.id)

def acknowledgeResourceRelease (id : RequestId) (s : RequestRuntime O P) :
    Except RequestError Unit × RequestRuntime O P :=
  match s.validRequestIndex id with
  | none => (.error .invalidRequest, s)
  | some index =>
    match s.requestAt index with
    | none => (.error .invalidRequest, s)
    | some request =>
      if !request.resourceReleaseDispatched then (.error .releaseNotDispatched, s)
      else if request.resourceState = .released then (.error .invalidState, s)
      else
        let s := s.modifyRequest index fun request =>
          { request with resourceState := .released }
        let s := s.unchargeResources request.resources
        (.ok (), s.tryRetire id)

end RequestRuntime

end Ginkgo.Kernel.Request
