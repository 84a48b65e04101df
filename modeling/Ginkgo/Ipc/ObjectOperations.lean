import Ginkgo.Ipc.Operations

/-!
# Operations on the objects behind handles

Windows, shared memory, processes, requests, system power and waits.  The controls that
the kernel's services keep are named directly; everything else goes through a handle of
table `t`.
-/

namespace Ginkgo.Ipc

open Ginkgo.Lib Ginkgo.Sysapi

variable {n : Nat}

/-! ## Windows -/

/-- The window behind a handle that carries `required` and names the end `role`. -/
def windowForRole (t : Fin n) (handle : Handle) (required : Rights) (role : WindowRole) :
    IpcM n WindowId := do
  let object ← objectWithRights t handle required
  liftExcept (windowEndpointForRole object role)

/-- Write back a window and wake both ends. -/
def commitWindow (w : WindowId) (state : WindowState) : IpcM n Unit :=
  modify fun s =>
    ((s.setWindow w state).notifyWindowWaiters w .client).notifyWindowWaiters w .manager

def windowPresent (t : Fin n) (client : Handle) (bufferIndex generation : Nat) :
    IpcM n WindowPresentation := do
  let w ← windowForRole t client Rights.WRITE .client
  let s ← get
  let (presentation, state) ← liftExcept ((s.windows.cell w).present bufferIndex generation)
  commitWindow w state
  pure presentation

def windowReadRelease (t : Fin n) (client : Handle) : IpcM n WindowRelease := do
  let w ← windowForRole t client Rights.READ .client
  let s ← get
  let (release, state) ← liftExcept (s.windows.cell w).readRelease
  commitWindow w state
  pure release

def windowManagerPending (t : Fin n) (manager : Handle) : IpcM n WindowPresentation := do
  let w ← windowForRole t manager Rights.MANAGE .manager
  let s ← get
  liftExcept (s.windows.cell w).managerPending

def windowManagerDisplayed (t : Fin n) (manager : Handle) : IpcM n (Option WindowPresentation) := do
  let w ← windowForRole t manager Rights.MANAGE .manager
  let s ← get
  pure (s.windows.cell w).displayed

/-- Copy part of a presentation's buffer out of the shared memory. -/
def copyWindowBuffer (w : WindowId) (presentation : WindowPresentation)
    (offset length : Nat) : IpcM n (List UInt8) := do
  let s ← get
  let state := s.windows.cell w
  let start ← liftExcept (state.bufferStart presentation offset length)
  let backing := s.memories.cell state.sharedMemory
  liftExcept ((s.storages.cell backing.storage).read start length)

def windowManagerCopyPending (t : Fin n) (manager : Handle)
    (presentation : WindowPresentation) (offset length : Nat) : IpcM n (List UInt8) := do
  let w ← windowForRole t manager (Rights.READ ||| Rights.MANAGE) .manager
  let s ← get
  if (s.windows.cell w).pending ≠ some presentation then fail .invalidMessage
  let bytes ← copyWindowBuffer w presentation offset length
  modify fun s => s.setWindow w { s.windows.cell w with pendingRead := true }
  pure bytes

def windowManagerCopyDisplayed (t : Fin n) (manager : Handle)
    (presentation : WindowPresentation) (offset length : Nat) : IpcM n (List UInt8) := do
  let w ← windowForRole t manager (Rights.READ ||| Rights.MANAGE) .manager
  let s ← get
  if (s.windows.cell w).displayed ≠ some presentation then fail .invalidMessage
  copyWindowBuffer w presentation offset length

def windowManagerDiscardPending (t : Fin n) (manager : Handle)
    (presentation : WindowPresentation) : IpcM n Unit := do
  let w ← windowForRole t manager Rights.MANAGE .manager
  let s ← get
  let state ← liftExcept ((s.windows.cell w).discardPending presentation)
  commitWindow w state

def windowManagerCoalescePending (t : Fin n) (manager : Handle)
    (pending : WindowPresentation) (replacementBufferIndex generation : Nat) :
    IpcM n WindowPresentation := do
  let w ← windowForRole t manager Rights.MANAGE .manager
  let s ← get
  let (replacement, state) ← liftExcept
    ((s.windows.cell w).coalescePending pending replacementBufferIndex generation)
  commitWindow w state
  pure replacement

/-- Write back a window that changed; one that did not wakes no one. -/
def commitWindowIfChanged (w : WindowId) : Option WindowState → IpcM n Unit
  | none => pure ()
  | some state => commitWindow w state

def windowManagerComplete (t : Fin n) (manager : Handle)
    (presentation : WindowPresentation) (successful : Bool) : IpcM n Unit := do
  let w ← windowForRole t manager Rights.MANAGE .manager
  let s ← get
  let state ← liftExcept ((s.windows.cell w).complete presentation successful)
  commitWindowIfChanged w state

def windowManagerRetire (t : Fin n) (manager : Handle) : IpcM n Unit := do
  let w ← windowForRole t manager Rights.MANAGE .manager
  let s ← get
  let state ← liftExcept (s.windows.cell w).retire
  commitWindowIfChanged w state

def windowBufferLen (t : Fin n) (window : Handle) : IpcM n Nat := do
  let object ← objectWithRights t window Rights.READ
  let (w, _) ← liftExcept (windowEndpoint object)
  let s ← get
  pure (s.windows.cell w).bufferLen

def windowBufferCountOf (t : Fin n) (window : Handle) : IpcM n Nat := do
  let object ← objectWithRights t window Rights.READ
  let (w, _) ← liftExcept (windowEndpoint object)
  let s ← get
  pure (s.windows.cell w).buffers.length

def sharedMemoryRead (t : Fin n) (handle : Handle) (offset length : Nat) : IpcM n (List UInt8) := do
  let object ← objectWithRights t handle Rights.READ
  let memory ← liftExcept (sharedMemoryObject object)
  let s ← get
  let backing := s.memories.cell memory
  let _ ← liftExcept (checkedRange offset length backing.logicalLen)
  liftExcept ((s.storages.cell backing.storage).read offset length)

def sharedMemoryWrite (t : Fin n) (handle : Handle) (offset : Nat) (input : List UInt8) :
    IpcM n Unit := do
  let object ← objectWithRights t handle Rights.WRITE
  let memory ← liftExcept (sharedMemoryObject object)
  let s ← get
  let backing := s.memories.cell memory
  let _ ← liftExcept (checkedRange offset input.length backing.logicalLen)
  let storage ← liftExcept ((s.storages.cell backing.storage).write offset input)
  set { s with storages := s.storages.modify backing.storage fun _ => storage }

/-- A lease keeps the backing and the exact rights asked for. -/
def sharedMemoryRequestLease (t : Fin n) (handle : Handle) (offset length : Nat)
    (rights : Rights) : IpcM n MemoryId := do
  let allowed := Rights.READ ||| Rights.WRITE
  if rights = Rights.empty ∨ !Bitflags.contains allowed rights then fail .invalidRights
  let object ← objectWithRights t handle rights
  let memory ← liftExcept (sharedMemoryObject object)
  let s ← get
  let _ ← liftExcept (checkedRange offset length (s.memories.cell memory).logicalLen)
  pure memory

inductive SharedMemoryMappingAccess
  | readOnly
  | readWrite
  deriving DecidableEq, Repr

def SharedMemoryMappingAccess.requiredRights : SharedMemoryMappingAccess → Rights
  | .readOnly => Rights.MAP ||| Rights.READ
  | .readWrite => Rights.MAP ||| Rights.READ ||| Rights.WRITE

def sharedMemoryMappingLease (t : Fin n) (handle : Handle)
    (access : SharedMemoryMappingAccess) : IpcM n MemoryId := do
  let object ← objectWithRights t handle access.requiredRights
  liftExcept (sharedMemoryObject object)

def sharedMemoryLen (t : Fin n) (handle : Handle) : IpcM n Nat := do
  let object ← objectWithRights t handle Rights.READ
  let memory ← liftExcept (sharedMemoryObject object)
  let s ← get
  pure (s.memories.cell memory).logicalLen

def processTerminate (t : Fin n) (handle : Handle) : IpcM n Unit := do
  let object ← objectWithRights t handle Rights.TERMINATE
  let p ← liftExcept (processControl object)
  let s ← get
  let state := s.processes.cell p
  if state.info.state = .terminated ∨ state.terminateRequested then pure ()
  else
    let calls :=
      match state.terminationObserver with
      | some (token, observer) => if s.observers.cell observer then [(observer, token)] else []
      | none => []
    set { s with
      processes := s.processes.modify p ({ · with terminateRequested := true })
      notified := s.notified ++ calls }

def processRegisterTerminationObserver (p : ProcessControlId) (token : WaitToken)
    (observer : ObserverId) : IpcM n Unit := do
  let s ← get
  if (s.processes.cell p).terminationObserver ≠ none then fail .alreadyExists
  set { s with
    processes := s.processes.modify p ({ · with terminationObserver := some (token, observer) }) }

/-- Publish a terminal outcome unless another one was first. -/
def processMarkTerminal (p : ProcessControlId) (info : ProcessInfo) : IpcM n Bool := do
  let s ← get
  if (s.processes.cell p).info.state = .terminated then pure false
  else do
    set ({ s with processes := s.processes.modify p ({ · with info := info }) }
      |>.notifyProcessWaiters p)
    pure true

def processMarkExited (p : ProcessControlId) (exitCode : Int) : IpcM n Bool :=
  processMarkTerminal p (ProcessControlState.exited exitCode)

def processMarkFaulted (p : ProcessControlId) (fault : ProcessFault)
    (faultCode faultAddress : Nat) : IpcM n Bool :=
  if fault = .none then pure false
  else processMarkTerminal p (ProcessControlState.faulted fault faultCode faultAddress)

def processMarkTerminated (p : ProcessControlId) : IpcM n Bool :=
  processMarkTerminal p ProcessControlState.terminated

def requestCancellation (r : RequestControlId) : IpcM n Bool := do
  let s ← get
  if requestStateIsTerminal (s.requests.cell r).info.requestState then pure false
  else do
    set { s with requests := s.requests.modify r ({ · with cancelRequested := true }) }
    pure true

def requestPublishTerminal (r : RequestControlId) (info : RequestInfo) : IpcM n Bool := do
  if !requestStateIsTerminal info.requestState then pure false
  else
    let s ← get
    if requestStateIsTerminal (s.requests.cell r).info.requestState then pure false
    else do
      set ({ s with requests := s.requests.modify r ({ · with info := info }) }
        |>.notifyRequestWaiters r)
      pure true

def systemPowerRequest (t : Fin n) (handle : Handle) (action : SystemPowerAction)
    (flags : SystemPowerFlags) (deadlineNs : Nat) : IpcM n Unit := do
  let object ← objectWithRights t handle Rights.MANAGE
  let control ← liftExcept (systemPowerControl object)
  let s ← get
  let info ← liftExcept (SystemPowerControl.request (s.powers.cell control) action flags deadlineNs)
  set { s with powers := s.powers.modify control fun _ => info }

def systemPowerCancel (t : Fin n) (handle : Handle) : IpcM n Unit := do
  let object ← objectWithRights t handle Rights.MANAGE
  let control ← liftExcept (systemPowerControl object)
  let s ← get
  let info ← liftExcept (SystemPowerControl.cancel (s.powers.cell control))
  set { s with powers := s.powers.modify control fun _ => info }

def systemPowerInfo (t : Fin n) (handle : Handle) : IpcM n SystemPowerInfo := do
  let object ← objectWithRights t handle Rights.INSPECT
  let control ← liftExcept (systemPowerControl object)
  let s ← get
  pure (s.powers.cell control)

/-- The generation a lease was granted at; it lapses when the authority's moves on. -/
def schedulingAuthorityLease (t : Fin n) (handle : Handle)
    (requested : ThreadSchedulingClass) : IpcM n (AuthorityId × Nat) := do
  let object ← objectWithRights t handle Rights.SCHEDULE
  match object.kernel with
  | .schedulingAuthority authority => do
    let s ← get
    let _ ← liftExcept ((s.authorities.cell authority).authorize requested)
    pure (authority, (s.authorities.cell authority).generation)
  | _ => fail .wrongObjectType

def schedulingAuthorityActivate (authority : AuthorityId) : IpcM n Unit :=
  modify fun s => { s with authorities := s.authorities.modify authority (·.activate) }

def schedulingAuthorityRevoke (authority : AuthorityId) : IpcM n Unit :=
  modify fun s => { s with authorities := s.authorities.modify authority (·.revoke) }

/-! ## Waiting -/

def objectSignals (t : Fin n) (handle : Handle) : IpcM n Signals := do
  let object ← objectWithRights t handle Rights.WAIT
  let s ← get
  match object.kernel with
  | .channel c side => pure (s.facetSignals (.channel c side))
  | .window w role => pure (s.facetSignals (.window w role))
  | .process p => pure (s.facetSignals (.process p))
  | .request r => pure (s.facetSignals (.request r))
  | _ => pure Signals.empty

def waitFacet (object : Object) : Except IpcError WaitFacet :=
  match object.kernel with
  | .channel c side => .ok (.channel c side)
  | .window w role => .ok (.window w role)
  | .process p => .ok (.process p)
  | .request r => .ok (.request r)
  | _ => .error .wrongObjectType

/-- `WaitFacet::register`: `false` when the level is already met and nothing is retained. -/
def registerFacet (facet : WaitFacet) (token : WaitToken) (waitFor : Signals)
    (observer : ObserverId) : IpcM n Bool := do
  let s ← get
  if Bitflags.intersects (s.facetSignals facet) waitFor then pure false
  else do
    let waiters ← onMemory (registerSignalWaiter (s.facetWaiters facet) token waitFor observer)
    modify (·.withFacetWaiters facet waiters)
    pure true

def System.unregisterFacet (s : System n) (token : WaitToken) (facet : WaitFacet) : System n :=
  s.withFacetWaiters facet (unregisterSignalWaiter (s.facetWaiters facet) token)

/-- `WaitSetRegistration::drop`. -/
def System.unregisterAll (s : System n) (token : WaitToken) (facets : List WaitFacet) : System n :=
  facets.foldl (fun s facet => s.unregisterFacet token facet) s

/-- One wait item: the facet that was retained, or none when it is ready. -/
def registerItem (t : Fin n) (token : WaitToken) (observer : ObserverId) (item : WaitItem) :
    IpcM n (Option WaitFacet) := do
  let source ← entry t item.handle
  if !Bitflags.contains source.rights Rights.WAIT then fail .accessDenied
  let facet ← liftExcept (waitFacet source.object)
  let retained ← registerFacet facet token item.waitFor observer
  pure (if retained then some facet else none)

/-- Register the items in order.  An error unregisters the facets retained so far. -/
def registerItems (t : Fin n) (token : WaitToken) (observer : ObserverId) :
    List WaitItem → List WaitFacet → Bool → IpcM n (List WaitFacet × Bool)
  | [], facets, alreadyReady => pure (facets, alreadyReady)
  | item :: rest, facets, alreadyReady => do
    match ← attempt (registerItem t token observer item) with
    | .error fault => do
      modify (·.unregisterAll token facets)
      throw fault
    | .ok (some facet) => registerItems t token observer rest (facets ++ [facet]) alreadyReady
    | .ok none => registerItems t token observer rest facets true

def registerWaitMany (t : Fin n) (items : List WaitItem) (token : WaitToken)
    (observer : ObserverId) : IpcM n RegistrationId := do
  tryVecWithCapacity items.length
  let (facets, alreadyReady) ← registerItems t token observer items [] false
  let s ← get
  if alreadyReady then do
    if !s.observers.cell observer then throw .panicked
    set { s with notified := s.notified ++ [(observer, token)] }
  let s ← get
  set { s with registrations := s.registrations.alloc (some ⟨token, facets⟩) }
  pure s.registrations.next

def dropRegistration (registration : RegistrationId) : IpcM n Unit := do
  let s ← get
  match s.registrations.cell registration with
  | none => pure ()
  | some ⟨token, facets⟩ =>
    modify fun s =>
      { s.unregisterAll token facets with
        registrations := s.registrations.modify registration fun _ => none }

/-- Scan the items in order for the first that is ready. -/
def pollItems (t : Fin n) : List WaitItem → Nat → Option Nat → IpcM n (Option Nat × List WaitItem)
  | [], _, ready => pure (ready, [])
  | item :: rest, index, ready => do
    let pending ← objectSignals t item.handle
    let ready :=
      if ready.isNone && Bitflags.intersects pending item.waitFor then some index else ready
    let (ready, items) ← pollItems t rest (index + 1) ready
    pure (ready, { item with pending := pending } :: items)

def pollWaitMany (t : Fin n) (items : List WaitItem) : IpcM n (Option Nat × List WaitItem) :=
  pollItems t items 0 none

/-! ## Inspection -/

def processInfo (t : Fin n) (handle : Handle) : IpcM n ProcessInfo := do
  let object ← objectWithRights t handle Rights.INSPECT
  let p ← liftExcept (processControl object)
  let s ← get
  pure (s.processes.cell p).info

def requestInfo (t : Fin n) (handle : Handle) : IpcM n RequestInfo := do
  let object ← objectWithRights t handle Rights.INSPECT
  let r ← liftExcept (requestControl object)
  let s ← get
  pure (s.requests.cell r).info

def requestCancellationControl (t : Fin n) (handle : Handle) : IpcM n (RequestControlId × Nat) := do
  let object ← objectWithRights t handle Rights.MANAGE
  let r ← liftExcept (requestControl object)
  let s ← get
  pure (r, (s.requests.cell r).requestId)

/-- The shape shared by the typed lookups: check the rights, then match the object. -/
def lookup {α : Type} (t : Fin n) (handle : Handle) (required : Rights)
    (select : KernelObject → Option α) : IpcM n α := do
  let object ← objectWithRights t handle required
  match select object.kernel with
  | some a => pure a
  | none => fail .wrongObjectType

def filesystemRoot (t : Fin n) (handle : Handle) (rights : Rights) : IpcM n Unit :=
  lookup t handle rights fun
    | .filesystemRoot => some ()
    | _ => none

def filesystemDirectory (t : Fin n) (handle : Handle) (required : Rights) :
    IpcM n DirectoryHandle :=
  lookup t handle required fun
    | .directory directory => some directory
    | _ => none

def filesystemFile (t : Fin n) (handle : Handle) (rights : Rights) : IpcM n FileHandle :=
  lookup t handle rights fun
    | .file file => some file
    | _ => none

def applicationDataScope (t : Fin n) (handle : Handle) (required : Rights) : IpcM n (List UInt8) :=
  lookup t handle (required ||| Rights.READ) fun
    | .applicationData appId => some appId
    | _ => none

def randomSource (t : Fin n) (handle : Handle) : IpcM n Unit :=
  lookup t handle Rights.READ fun
    | .randomSource => some ()
    | _ => none

end Ginkgo.Ipc
