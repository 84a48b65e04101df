import Ginkgo.Lib.Transition
import Ginkgo.Ipc.ObjectOperations

/-!
# Runs of the capability system

Every public operation as one constructor, grouped as the source groups them, and runs
of any number of calls over any number of tables.  A record of a run keeps the states
around a call and what the caller saw, so that statements about a run are about the
arguments and results of its calls.
-/

namespace Ginkgo.Ipc

open Ginkgo.Lib Ginkgo.Sysapi

variable {n : Nat}

/-- What a call returns. -/
inductive Value
  | unit
  | flag (value : Bool)
  | size (value : Nat)
  | handle (handle : Handle)
  | control (handle : Handle) (control : Nat)
  | pair (left right : Handle)
  | handles (handles : List Handle)
  | message (info : MessageInfo) (bytes : List UInt8) (handles : List Handle)
  | bytes (bytes : List UInt8)
  | presentation (presentation : WindowPresentation)
  | displayed (presentation : Option WindowPresentation)
  | release (release : WindowRelease)
  | poll (ready : Option Nat) (items : List WaitItem)
  | signals (signals : Signals)
  | rights (rights : Rights)
  | objectType (type : ObjectType)
  | processInfo (info : ProcessInfo)
  | requestInfo (info : RequestInfo)
  | powerInfo (info : SystemPowerInfo)
  | lease (control generation : Nat)
  | directory (directory : DirectoryHandle)
  | file (file : FileHandle)
  deriving DecidableEq

/-! ## Calls -/

inductive CreateOp (n : Nat)
  | processCreate (t : Fin n)
  | processInstall (t : Fin n) (process : ProcessControlId)
  | requestInstall (t : Fin n) (request : RequestControlId)
  | systemPowerInstall (t : Fin n) (control : PowerControlId)
  | schedulingAuthorityCreate (t : Fin n) (maximumClass : ThreadSchedulingClass) (active : Bool)
  | randomSourceCreate (t : Fin n)
  | applicationDataCreate (t : Fin n) (appId : List UInt8)
  | filesystemRootCreate (t : Fin n)
  | filesystemRootCreateWithRights (t : Fin n) (rights : Rights)
  | filesystemDirectoryCreate (t : Fin n) (directory : DirectoryHandle) (rights : Rights)
  | filesystemFileCreate (t : Fin n) (file : FileHandle) (rights : Rights)
  | sharedMemoryCreateWithStorage (t : Fin n) (storage : StorageId)
  | windowCreate (t : Fin n) (sharedMemory : Handle)
  | windowCreateWithGenerationAndBufferCount (t : Fin n) (sharedMemory : Handle)
      (generation bufferCount : Nat)
  | channelCreate (t : Fin n)
  | channelCreateBetween (left right : Fin n) (distinct : left ≠ right)

inductive HandleOp (n : Nat)
  | handleClose (t : Fin n) (handle : Handle)
  | handleDuplicate (t : Fin n) (handle : Handle) (rights : Rights)
  | handleTransferBatchBetween (source destination : Fin n) (distinct : source ≠ destination)
      (dispositions : List HandleOperationDisposition)
  | handleMoveBetween (source destination : Fin n) (distinct : source ≠ destination)
      (handle : Handle) (rights : Rights)

inductive ChannelOp (n : Nat)
  | channelWrite (t : Fin n) (channel : Handle) (bytes : List UInt8) (handles : List Handle)
  | channelWriteWithDispositions (t : Fin n) (channel : Handle) (bytes : List UInt8)
      (dispositions : List HandleDisposition)
  | channelWriteWithHandleOperations (t : Fin n) (channel : Handle) (bytes : List UInt8)
      (dispositions : List HandleOperationDisposition)
  | channelRead (t : Fin n) (channel : Handle) (bytesLen handlesLen : Nat)

inductive WindowOp (n : Nat)
  | windowPresent (t : Fin n) (client : Handle) (bufferIndex generation : Nat)
  | windowReadRelease (t : Fin n) (client : Handle)
  | windowManagerCopyPending (t : Fin n) (manager : Handle)
      (presentation : WindowPresentation) (offset length : Nat)
  | windowManagerDiscardPending (t : Fin n) (manager : Handle) (presentation : WindowPresentation)
  | windowManagerCoalescePending (t : Fin n) (manager : Handle)
      (pending : WindowPresentation) (replacementBufferIndex generation : Nat)
  | windowManagerComplete (t : Fin n) (manager : Handle)
      (presentation : WindowPresentation) (successful : Bool)
  | windowManagerRetire (t : Fin n) (manager : Handle)

/-- Calls on control state, by a handle or by the service that keeps the control. -/
inductive ControlOp (n : Nat)
  | storageNew (storage : SharedMemoryStorage)
  | sharedMemoryWrite (t : Fin n) (handle : Handle) (offset : Nat) (input : List UInt8)
  | processTerminate (t : Fin n) (handle : Handle)
  | processRegisterTerminationObserver (process : ProcessControlId) (token : WaitToken)
      (observer : ObserverId)
  | processMarkExited (process : ProcessControlId) (exitCode : Int)
  | processMarkFaulted (process : ProcessControlId) (fault : ProcessFault)
      (faultCode faultAddress : Nat)
  | processMarkTerminated (process : ProcessControlId)
  | requestNew (requestId : Nat) (info : RequestInfo)
  | requestCancellation (request : RequestControlId)
  | requestPublishTerminal (request : RequestControlId) (info : RequestInfo)
  | systemPowerNew
  | systemPowerRequest (t : Fin n) (handle : Handle) (action : SystemPowerAction)
      (flags : SystemPowerFlags) (deadlineNs : Nat)
  | systemPowerCancel (t : Fin n) (handle : Handle)
  | schedulingAuthorityActivate (authority : AuthorityId)
  | schedulingAuthorityRevoke (authority : AuthorityId)

inductive WaitOp (n : Nat)
  | observerNew
  | observerDrop (observer : ObserverId)
  | registerWaitMany (t : Fin n) (items : List WaitItem) (token : WaitToken) (observer : ObserverId)
  | dropRegistration (registration : RegistrationId)

/-- Calls that only look. -/
inductive Query (n : Nat)
  | handleRights (t : Fin n) (handle : Handle)
  | objectType (t : Fin n) (handle : Handle)
  | objectSignals (t : Fin n) (handle : Handle)
  | pollWaitMany (t : Fin n) (items : List WaitItem)
  | processInfo (t : Fin n) (handle : Handle)
  | requestInfo (t : Fin n) (handle : Handle)
  | requestCancellationControl (t : Fin n) (handle : Handle)
  | systemPowerInfo (t : Fin n) (handle : Handle)
  | schedulingAuthorityLease (t : Fin n) (handle : Handle) (requested : ThreadSchedulingClass)
  | randomSource (t : Fin n) (handle : Handle)
  | applicationDataScope (t : Fin n) (handle : Handle) (required : Rights)
  | filesystemRoot (t : Fin n) (handle : Handle) (required : Rights)
  | filesystemDirectory (t : Fin n) (handle : Handle) (required : Rights)
  | filesystemFile (t : Fin n) (handle : Handle) (required : Rights)
  | sharedMemoryLen (t : Fin n) (handle : Handle)
  | sharedMemoryRead (t : Fin n) (handle : Handle) (offset length : Nat)
  | sharedMemoryMappingLease (t : Fin n) (handle : Handle) (access : SharedMemoryMappingAccess)
  | sharedMemoryRequestLease (t : Fin n) (handle : Handle) (offset length : Nat) (rights : Rights)
  | windowBufferLen (t : Fin n) (window : Handle)
  | windowBufferCount (t : Fin n) (window : Handle)
  | windowManagerPending (t : Fin n) (manager : Handle)
  | windowManagerDisplayed (t : Fin n) (manager : Handle)
  | windowManagerCopyDisplayed (t : Fin n) (manager : Handle)
      (presentation : WindowPresentation) (offset length : Nat)

inductive Op (n : Nat)
  | create (op : CreateOp n)
  | handle (op : HandleOp n)
  | channel (op : ChannelOp n)
  | window (op : WindowOp n)
  | control (op : ControlOp n)
  | wait (op : WaitOp n)
  | query (op : Query n)

def CreateOp.run : CreateOp n → IpcM n Value
  | .processCreate t => do
    let (handle, control) ← Ipc.processCreate t
    pure (.control handle control)
  | .processInstall t process => .handle <$> Ipc.processInstall t process
  | .requestInstall t request => .handle <$> Ipc.requestInstall t request
  | .systemPowerInstall t control => .handle <$> Ipc.systemPowerInstall t control
  | .schedulingAuthorityCreate t maximumClass active => do
    let (handle, control) ← Ipc.schedulingAuthorityCreate t maximumClass active
    pure (.control handle control)
  | .randomSourceCreate t => .handle <$> Ipc.randomSourceCreate t
  | .applicationDataCreate t appId => .handle <$> Ipc.applicationDataCreate t appId
  | .filesystemRootCreate t => .handle <$> Ipc.filesystemRootCreate t
  | .filesystemRootCreateWithRights t rights =>
    .handle <$> Ipc.filesystemRootCreateWithRights t rights
  | .filesystemDirectoryCreate t directory rights =>
    .handle <$> Ipc.filesystemDirectoryCreate t directory rights
  | .filesystemFileCreate t file rights => .handle <$> Ipc.filesystemFileCreate t file rights
  | .sharedMemoryCreateWithStorage t storage =>
    .handle <$> Ipc.sharedMemoryCreateWithStorage t storage
  | .windowCreate t sharedMemory => do
    let (client, manager) ← Ipc.windowCreate t sharedMemory
    pure (.pair client manager)
  | .windowCreateWithGenerationAndBufferCount t sharedMemory generation bufferCount => do
    let (client, manager) ←
      Ipc.windowCreateWithGenerationAndBufferCount t sharedMemory generation bufferCount
    pure (.pair client manager)
  | .channelCreate t => do
    let (left, right) ← Ipc.channelCreate t
    pure (.pair left right)
  | .channelCreateBetween left right _ => do
    let (leftHandle, rightHandle) ← Ipc.channelCreateBetween left right
    pure (.pair leftHandle rightHandle)

def HandleOp.run : HandleOp n → IpcM n Value
  | .handleClose t handle => do
    Ipc.handleClose t handle
    pure .unit
  | .handleDuplicate t handle rights => .handle <$> Ipc.handleDuplicate t handle rights
  | .handleTransferBatchBetween source destination _ dispositions =>
    .handles <$> Ipc.handleTransferBatchBetween source destination dispositions
  | .handleMoveBetween source destination _ handle rights =>
    .handle <$> Ipc.handleMoveBetween source destination handle rights

def ChannelOp.run : ChannelOp n → IpcM n Value
  | .channelWrite t channel bytes handles => do
    Ipc.channelWrite t channel bytes handles
    pure .unit
  | .channelWriteWithDispositions t channel bytes dispositions => do
    Ipc.channelWriteWithDispositions t channel bytes dispositions
    pure .unit
  | .channelWriteWithHandleOperations t channel bytes dispositions => do
    Ipc.channelWriteWithHandleOperations t channel bytes dispositions
    pure .unit
  | .channelRead t channel bytesLen handlesLen => do
    let (info, bytes, handles) ← Ipc.channelRead t channel bytesLen handlesLen
    pure (.message info bytes handles)

def WindowOp.run : WindowOp n → IpcM n Value
  | .windowPresent t client bufferIndex generation =>
    .presentation <$> Ipc.windowPresent t client bufferIndex generation
  | .windowReadRelease t client => .release <$> Ipc.windowReadRelease t client
  | .windowManagerCopyPending t manager presentation offset length =>
    .bytes <$> Ipc.windowManagerCopyPending t manager presentation offset length
  | .windowManagerDiscardPending t manager presentation => do
    Ipc.windowManagerDiscardPending t manager presentation
    pure .unit
  | .windowManagerCoalescePending t manager pending replacementBufferIndex generation =>
    .presentation <$>
      Ipc.windowManagerCoalescePending t manager pending replacementBufferIndex generation
  | .windowManagerComplete t manager presentation successful => do
    Ipc.windowManagerComplete t manager presentation successful
    pure .unit
  | .windowManagerRetire t manager => do
    Ipc.windowManagerRetire t manager
    pure .unit

def ControlOp.run : ControlOp n → IpcM n Value
  | .storageNew storage => do
    let s ← get
    set { s with storages := s.storages.alloc storage }
    pure (.size s.storages.next)
  | .sharedMemoryWrite t handle offset input => do
    Ipc.sharedMemoryWrite t handle offset input
    pure .unit
  | .processTerminate t handle => do
    Ipc.processTerminate t handle
    pure .unit
  | .processRegisterTerminationObserver process token observer => do
    Ipc.processRegisterTerminationObserver process token observer
    pure .unit
  | .processMarkExited process exitCode => .flag <$> Ipc.processMarkExited process exitCode
  | .processMarkFaulted process fault faultCode faultAddress =>
    .flag <$> Ipc.processMarkFaulted process fault faultCode faultAddress
  | .processMarkTerminated process => .flag <$> Ipc.processMarkTerminated process
  | .requestNew requestId info => .size <$> Ipc.requestNew requestId info
  | .requestCancellation request => .flag <$> Ipc.requestCancellation request
  | .requestPublishTerminal request info => .flag <$> Ipc.requestPublishTerminal request info
  | .systemPowerNew => .size <$> Ipc.systemPowerNew
  | .systemPowerRequest t handle action flags deadlineNs => do
    Ipc.systemPowerRequest t handle action flags deadlineNs
    pure .unit
  | .systemPowerCancel t handle => do
    Ipc.systemPowerCancel t handle
    pure .unit
  | .schedulingAuthorityActivate authority => do
    Ipc.schedulingAuthorityActivate authority
    pure .unit
  | .schedulingAuthorityRevoke authority => do
    Ipc.schedulingAuthorityRevoke authority
    pure .unit

def WaitOp.run : WaitOp n → IpcM n Value
  | .observerNew => do
    let s ← get
    set { s with observers := s.observers.alloc true }
    pure (.size s.observers.next)
  | .observerDrop observer => do
    modify fun s => { s with observers := s.observers.modify observer fun _ => false }
    pure .unit
  | .registerWaitMany t items token observer =>
    .size <$> Ipc.registerWaitMany t items token observer
  | .dropRegistration registration => do
    Ipc.dropRegistration registration
    pure .unit

def Query.run : Query n → IpcM n Value
  | .handleRights t handle => do
    let s ← get
    .rights <$> liftExcept ((s.tables t).handleRights handle)
  | .objectType t handle => do
    let s ← get
    .objectType <$> liftExcept ((s.tables t).objectType handle)
  | .objectSignals t handle => .signals <$> Ipc.objectSignals t handle
  | .pollWaitMany t items => do
    let (ready, items) ← Ipc.pollWaitMany t items
    pure (.poll ready items)
  | .processInfo t handle => .processInfo <$> Ipc.processInfo t handle
  | .requestInfo t handle => .requestInfo <$> Ipc.requestInfo t handle
  | .requestCancellationControl t handle => do
    let (control, requestId) ← Ipc.requestCancellationControl t handle
    pure (.lease control requestId)
  | .systemPowerInfo t handle => .powerInfo <$> Ipc.systemPowerInfo t handle
  | .schedulingAuthorityLease t handle requested => do
    let (control, generation) ← Ipc.schedulingAuthorityLease t handle requested
    pure (.lease control generation)
  | .randomSource t handle => do
    Ipc.randomSource t handle
    pure .unit
  | .applicationDataScope t handle required =>
    .bytes <$> Ipc.applicationDataScope t handle required
  | .filesystemRoot t handle required => do
    Ipc.filesystemRoot t handle required
    pure .unit
  | .filesystemDirectory t handle required =>
    .directory <$> Ipc.filesystemDirectory t handle required
  | .filesystemFile t handle required => .file <$> Ipc.filesystemFile t handle required
  | .sharedMemoryLen t handle => .size <$> Ipc.sharedMemoryLen t handle
  | .sharedMemoryRead t handle offset length =>
    .bytes <$> Ipc.sharedMemoryRead t handle offset length
  | .sharedMemoryMappingLease t handle access =>
    .size <$> Ipc.sharedMemoryMappingLease t handle access
  | .sharedMemoryRequestLease t handle offset length rights =>
    .size <$> Ipc.sharedMemoryRequestLease t handle offset length rights
  | .windowBufferLen t window => .size <$> Ipc.windowBufferLen t window
  | .windowBufferCount t window => .size <$> Ipc.windowBufferCountOf t window
  | .windowManagerPending t manager => .presentation <$> Ipc.windowManagerPending t manager
  | .windowManagerDisplayed t manager => .displayed <$> Ipc.windowManagerDisplayed t manager
  | .windowManagerCopyDisplayed t manager presentation offset length =>
    .bytes <$> Ipc.windowManagerCopyDisplayed t manager presentation offset length

def Op.run : Op n → IpcM n Value
  | .create op => op.run
  | .handle op => op.run
  | .channel op => op.run
  | .window op => op.run
  | .control op => op.run
  | .wait op => op.run
  | .query op => op.run

/-- The controls a call names exist and the observer it borrows is alive.  The source
gets both from the references it is passed. -/
def Op.valid (s : System n) : Op n → Bool
  | .create (.processInstall _ process) => process < s.processes.next
  | .create (.requestInstall _ request) => request < s.requests.next
  | .create (.systemPowerInstall _ power) => power < s.powers.next
  | .create (.sharedMemoryCreateWithStorage _ storage) => storage < s.storages.next
  | .control (.processRegisterTerminationObserver process _ observer) =>
    process < s.processes.next && s.observers.cell observer
  | .control (.processMarkExited process _) => process < s.processes.next
  | .control (.processMarkFaulted process _ _ _) => process < s.processes.next
  | .control (.processMarkTerminated process) => process < s.processes.next
  | .control (.requestCancellation request) => request < s.requests.next
  | .control (.requestPublishTerminal request _) => request < s.requests.next
  | .control (.schedulingAuthorityActivate authority) => authority < s.authorities.next
  | .control (.schedulingAuthorityRevoke authority) => authority < s.authorities.next
  | .wait (.registerWaitMany _ _ _ observer) => s.observers.cell observer
  | _ => true

/-! ## Runs -/

/-- A call and the number of its allocations that succeed. -/
structure Call (n : Nat) where
  op : Op n
  memory : Budget

-- The closed runs share these facts about their tables.
instance neZeroOne : NeZero 1 := ⟨by decide⟩

instance neZeroTwo : NeZero 2 := ⟨by decide⟩

theorem zero_ne_one_two : (0 : Fin 2) ≠ 1 := by decide

/-- Make a call: what the caller sees, and the state it leaves. -/
def System.exec (s : System n) (call : Call n) : Except Fault Value × System n :=
  match call.op.run { s with memory := call.memory } with
  | .ok value s' => (.ok value, s')
  | .error fault s' => (.error fault, s')

/-- One call of a run with the states around it. -/
structure Record (n : Nat) where
  before : System n
  op : Op n
  outcome : Except Fault Value
  after : System n

inductive Step : System n → List (Record n) → System n → Prop
  | call {s : System n} {call : Call n} (hvalid : call.op.valid s = true) :
      Step s [⟨s, call.op, (s.exec call).1, (s.exec call).2⟩] (s.exec call).2

/-- `Run trace s`: from empty tables, the calls of `trace` lead to `s`. -/
def Run (trace : List (Record n)) (s : System n) : Prop := Star Step (System.init n) trace s

/-- Make the calls one after the other. -/
def System.execAll (s : System n) : List (Call n) → List (Record n) × System n
  | [] => ([], s)
  | call :: calls =>
    let (outcome, s') := s.exec call
    let (records, s'') := s'.execAll calls
    (⟨s, call.op, outcome, s'⟩ :: records, s'')

def System.validAll (s : System n) : List (Call n) → Bool
  | [] => true
  | call :: calls => call.op.valid s && (s.exec call).2.validAll calls

theorem star_execAll {s : System n} {calls : List (Call n)} (h : s.validAll calls = true) :
    Star Step s (s.execAll calls).1 (s.execAll calls).2 := by
  induction calls generalizing s with
  | nil => exact .refl _
  | cons call calls ih =>
    simp only [System.validAll, Bool.and_eq_true] at h
    exact (Star.single (Step.call h.1)).trans (ih h.2)

theorem run_execAll {calls : List (Call n)} (h : (System.init n).validAll calls = true) :
    Run ((System.init n).execAll calls).1 ((System.init n).execAll calls).2 :=
  star_execAll h

end Ginkgo.Ipc
