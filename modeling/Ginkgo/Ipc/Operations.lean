import Ginkgo.Ipc.System

/-!
# Handle-table operations

The operations of the capability layer, in the order of the source.  `t` is the table an
operation is called on.
-/

namespace Ginkgo.Ipc

open Ginkgo.Lib Ginkgo.Sysapi

variable {n : Nat}

def channelEndpoint (object : Object) : Except IpcError (ChannelId × Side) :=
  match object.kernel with
  | .channel state side => .ok (state, side)
  | _ => .error .wrongObjectType

def sharedMemoryObject (object : Object) : Except IpcError MemoryId :=
  match object.kernel with
  | .sharedMemory backing => .ok backing
  | _ => .error .wrongObjectType

def windowEndpoint (object : Object) : Except IpcError (WindowId × WindowRole) :=
  match object.kernel with
  | .window state role => .ok (state, role)
  | _ => .error .wrongObjectType

def windowEndpointForRole (object : Object) (role : WindowRole) : Except IpcError WindowId :=
  match windowEndpoint object with
  | .error e => .error e
  | .ok (state, endpointRole) => if endpointRole ≠ role then .error .accessDenied else .ok state

def processControl (object : Object) : Except IpcError ProcessControlId :=
  match object.kernel with
  | .process control => .ok control
  | _ => .error .wrongObjectType

def requestControl (object : Object) : Except IpcError RequestControlId :=
  match object.kernel with
  | .request control => .ok control
  | _ => .error .wrongObjectType

def systemPowerControl (object : Object) : Except IpcError PowerControlId :=
  match object.kernel with
  | .systemPower control => .ok control
  | _ => .error .wrongObjectType

/-! ## Creating objects -/

/-- `reserve_slots(1)?[0]`. -/
def reserveSlot (t : Fin n) : IpcM n Nat := do
  let slots ← reserveSlots t 1
  expect slots.head?

/-- The tail that all single-object constructors share: allocate the object, reserve a
slot for it and install it with `rights`. -/
def installObject (t : Fin n) (kernel : KernelObject) (rights : Rights) : IpcM n Handle := do
  tryAlloc
  let slot ← reserveSlot t
  let entry ← mintObject kernel rights
  insertReserved t slot entry

def processInstall (t : Fin n) (process : ProcessControlId) : IpcM n Handle :=
  installObject t (.process process) processDefaultRights

def processCreate (t : Fin n) : IpcM n (Handle × ProcessControlId) := do
  tryAlloc
  let s ← get
  set { s with processes := s.processes.alloc .new }
  let handle ← processInstall t s.processes.next
  pure (handle, s.processes.next)

def requestNew (requestId : Nat) (info : RequestInfo) : IpcM n RequestControlId := do
  if requestId = 0 ∨ !requestStateIsNonterminal info.requestState then fail .invalidMessage
  tryAlloc
  let s ← get
  set { s with requests := s.requests.alloc ⟨requestId, info, false, []⟩ }
  pure s.requests.next

def requestInstall (t : Fin n) (request : RequestControlId) : IpcM n Handle :=
  installObject t (.request request) requestDefaultRights

def systemPowerNew : IpcM n PowerControlId := do
  tryAlloc
  let s ← get
  set { s with powers := s.powers.alloc .default }
  pure s.powers.next

def systemPowerInstall (t : Fin n) (control : PowerControlId) : IpcM n Handle :=
  installObject t (.systemPower control) (Rights.MANAGE ||| Rights.INSPECT)

def schedulingAuthorityCreate (t : Fin n) (maximumClass : ThreadSchedulingClass)
    (active : Bool) : IpcM n (Handle × AuthorityId) := do
  if maximumClass ≠ .audio ∧ maximumClass ≠ .interactive then fail .invalidMessage
  tryAlloc
  let s ← get
  set { s with authorities := s.authorities.alloc ⟨maximumClass, active, 1⟩ }
  let handle ← installObject t (.schedulingAuthority s.authorities.next)
    (Rights.SCHEDULE ||| Rights.INSPECT)
  pure (handle, s.authorities.next)

def randomSourceCreate (t : Fin n) : IpcM n Handle :=
  installObject t .randomSource (Rights.READ ||| Rights.DUPLICATE)

def isAsciiLowercase (byte : UInt8) : Bool := 97 ≤ byte && byte ≤ 122

def isAsciiDigit (byte : UInt8) : Bool := 48 ≤ byte && byte ≤ 57

def validAppIdComponent (component : List UInt8) : Bool :=
  component.head?.any isAsciiLowercase &&
    component.all (fun byte => isAsciiLowercase byte || isAsciiDigit byte || byte == 45) &&
    component.getLast? != some 45

/-- Components separated by dots: lowercase letters, digits and inner dashes, starting with
a letter. -/
def validApplicationDataAppId (appId : List UInt8) : Bool :=
  !appId.isEmpty && appId.length ≤ applicationDataMaxAppIdLen &&
    (appId.splitOn 46).all validAppIdComponent

def applicationDataCreate (t : Fin n) (appId : List UInt8) : IpcM n Handle := do
  if !validApplicationDataAppId appId then fail .invalidMessage
  tryVecWithCapacity appId.length
  tryAlloc
  installObject t (.applicationData appId) (Rights.READ ||| Rights.TRANSFER)

def filesystemRootCreateWithRights (t : Fin n) (rights : Rights) : IpcM n Handle := do
  let allowed := Rights.READ ||| Rights.WRITE ||| Rights.EXECUTE
  if rights = Rights.empty ∨ !Bitflags.contains allowed rights then fail .invalidRights
  installObject t .filesystemRoot rights

def filesystemRootCreate (t : Fin n) : IpcM n Handle :=
  filesystemRootCreateWithRights t (Rights.READ ||| Rights.WRITE)

def filesystemDirectoryCreate (t : Fin n) (directory : DirectoryHandle) (rights : Rights) :
    IpcM n Handle := do
  let allowed := Rights.READ ||| Rights.WRITE ||| Rights.DUPLICATE ||| Rights.TRANSFER
  if rights = Rights.empty ∨ !Bitflags.contains allowed rights then fail .invalidRights
  installObject t (.directory directory) rights

def filesystemFileCreate (t : Fin n) (file : FileHandle) (rights : Rights) : IpcM n Handle := do
  let allowed := Rights.READ ||| Rights.WRITE ||| Rights.EXECUTE ||| Rights.DUPLICATE |||
    Rights.TRANSFER
  let hasDataAccess := Bitflags.intersects rights (Rights.READ ||| Rights.WRITE)
  let invalidExecute := Bitflags.contains rights Rights.EXECUTE &&
    (!Bitflags.contains rights Rights.READ || Bitflags.contains rights Rights.WRITE)
  if rights = Rights.empty ∨ !Bitflags.contains allowed rights ∨ !hasDataAccess ∨
      invalidExecute then
    fail .invalidRights
  installObject t (.file file) rights

/-- `SharedMemoryBacking::new`.  The identity is spent even if the object that was to own
the backing cannot be created. -/
def sharedMemoryBackingNew (storage : StorageId) : IpcM n SharedMemoryBacking := do
  let s ← get
  let store := s.storages.cell storage
  let pageCount ← liftExcept store.pageCount
  tryVecWithCapacity pageCount
  liftExcept (store.checkPages pageCount)
  let s ← get
  match checkedAdd s.nextMemoryIdentity 1 with
  | none => fail .outOfMemory
  | some next => do
    set { s with nextMemoryIdentity := next }
    pure ⟨s.nextMemoryIdentity, storage, store.logicalLen, store.mappedLen, store.physicalPages⟩

def sharedMemoryCreateWithStorage (t : Fin n) (storage : StorageId) : IpcM n Handle := do
  let backing ← sharedMemoryBackingNew storage
  let s ← get
  set { s with memories := s.memories.alloc backing }
  installObject t (.sharedMemory s.memories.next) sharedMemoryDefaultRights

def windowCreateWithGenerationAndBufferCount (t : Fin n) (sharedMemory : Handle)
    (generation bufferCount : Nat) : IpcM n (Handle × Handle) := do
  let memory ← objectWithRights t sharedMemory Rights.MANAGE
  if generation = 0 ∨ bufferCount < 2 then fail .invalidMessage
  let backing ← liftExcept (sharedMemoryObject memory)
  let s ← get
  let memoryLen := (s.memories.cell backing).logicalLen
  if memoryLen < bufferCount ∨ memoryLen % bufferCount ≠ 0 then fail .invalidMessage
  tryVecWithCapacity bufferCount
  let slots ← reserveSlots t 2
  -- the shared state, the client and the manager
  tryAlloc
  tryAlloc
  tryAlloc
  let s ← get
  let w := s.windows.next
  set { s with
    windows := s.windows.alloc (.new backing (memoryLen / bufferCount) generation bufferCount) }
  let clientSlot ← expect slots[0]?
  let managerSlot ← expect slots[1]?
  let client ← mintObject (.window w .client) windowClientRights
  let clientHandle ← insertReserved t clientSlot client
  let manager ← mintObject (.window w .manager) windowManagerRights
  let managerHandle ← insertReserved t managerSlot manager
  pure (clientHandle, managerHandle)

def windowCreate (t : Fin n) (sharedMemory : Handle) : IpcM n (Handle × Handle) :=
  windowCreateWithGenerationAndBufferCount t sharedMemory 1 windowBufferCount

/-- The allocations of `new_channel_objects`: both queues, both message caches, the shared
state and the two endpoints. -/
def newChannelAllocations : IpcM n Unit := do
  tryAlloc
  tryAlloc
  tryAlloc
  tryAlloc
  tryAlloc
  tryAlloc
  tryAlloc

/-- Install the two endpoints of a channel that has just been allocated. -/
def installChannel (left : Fin n) (leftSlot : Nat) (right : Fin n) (rightSlot : Nat) :
    IpcM n (Handle × Handle) := do
  let s ← get
  let c := s.channels.next
  set { s with channels := s.channels.alloc .new }
  let leftEntry ← mintObject (.channel c .left) channelDefaultRights
  let rightEntry ← mintObject (.channel c .right) channelDefaultRights
  let leftHandle ← insertReserved left leftSlot leftEntry
  let rightHandle ← insertReserved right rightSlot rightEntry
  pure (leftHandle, rightHandle)

def channelCreate (t : Fin n) : IpcM n (Handle × Handle) := do
  let slots ← reserveSlots t 2
  newChannelAllocations
  let leftSlot ← expect slots[0]?
  let rightSlot ← expect slots[1]?
  installChannel t leftSlot t rightSlot

def channelCreateBetween (left right : Fin n) : IpcM n (Handle × Handle) := do
  let leftSlot ← reserveSlot left
  let rightSlot ← reserveSlot right
  newChannelAllocations
  installChannel left leftSlot right rightSlot

/-! ## Closing, duplicating and transferring handles -/

def handleClose (t : Fin n) (handle : Handle) : IpcM n Unit := do
  let s ← get
  let (index, _) ← liftExcept ((s.tables t).validatedSlot handle)
  match (s.tables t).takeEntry index with
  | none => fail .invalidHandle
  | some (entry, table) => do
    set (s.withTable t table)
    dropEntries [entry]

def handleDuplicate (t : Fin n) (handle : Handle) (rights : Rights) : IpcM n Handle := do
  let source ← entry t handle
  if !Bitflags.contains source.rights Rights.DUPLICATE then fail .accessDenied
  if !Bitflags.contains source.rights rights then fail .invalidRights
  let ref ← mintRef
  let slot ← reserveSlot t
  insertReserved t slot ⟨source.object, rights, ref⟩

/-- A validated disposition.  A duplicate is cloned at once; a move leaves its source in
the table until everything else has succeeded. -/
inductive PreparedHandle
  | move (index : Nat) (rights : Rights)
  | duplicate (entry : HandleEntry)

def prepareHandle (t : Fin n) (prior : List HandleOperationDisposition)
    (disposition : HandleOperationDisposition) : IpcM n PreparedHandle := do
  if prior.any (·.handle = disposition.handle) then fail .duplicateHandle
  let s ← get
  let (index, _) ← liftExcept ((s.tables t).validatedSlot disposition.handle)
  match (s.tables t).slots[index]?.bind (·.entry) with
  | none => fail .invalidHandle
  | some entry => do
    if !Bitflags.contains entry.rights disposition.operation.required then fail .accessDenied
    if !Bitflags.contains entry.rights disposition.rights then fail .invalidRights
    match disposition.operation with
    | .move => pure (.move index disposition.rights)
    | .duplicate => do
      let ref ← mintRef
      pure (.duplicate ⟨entry.object, disposition.rights, ref⟩)

/-- Validate the dispositions in order; `prior` are those already validated. -/
def prepareHandles (t : Fin n) (prior : List HandleOperationDisposition) :
    List HandleOperationDisposition → IpcM n (List PreparedHandle)
  | [] => pure []
  | disposition :: rest => do
    let prepared ← prepareHandle t prior disposition
    let others ← prepareHandles t (prior ++ [disposition]) rest
    pure (prepared :: others)

/-- The entry a prepared handle stands for, leaving the source of a move vacant. -/
def takePrepared (t : Fin n) : PreparedHandle → IpcM n HandleEntry
  | .duplicate entry => pure entry
  | .move index rights => do
    let s ← get
    let (entry, table) ← expect ((s.tables t).takeEntry index)
    set (s.withTable t table)
    pure { entry with rights := rights }

/-- Move prepared handles into reserved slots of another table, one after the other. -/
def transferPrepared (source destination : Fin n) :
    List PreparedHandle → List Nat → IpcM n (List Handle)
  | prepared :: rest, slot :: slots => do
    let entry ← takePrepared source prepared
    let handle ← insertReserved destination slot entry
    let handles ← transferPrepared source destination rest slots
    pure (handle :: handles)
  | _, _ => pure []

def handleTransferBatchBetween (source destination : Fin n)
    (dispositions : List HandleOperationDisposition) : IpcM n (List Handle) := do
  tryVecWithCapacity dispositions.length
  let prepared ← prepareHandles source [] dispositions
  tryVecWithCapacity dispositions.length
  let slots ← reserveSlots destination dispositions.length
  transferPrepared source destination prepared slots

def handleMoveBetween (source destination : Fin n) (handle : Handle) (rights : Rights) :
    IpcM n Handle := do
  let handles ← handleTransferBatchBetween source destination [⟨handle, .move, rights⟩]
  expect handles.getLast?

/-! ## Channels -/

/-- The byte-only path reuses a cached message of the receiving side.  A cached message
holds no references, so dropping it when memory runs out has no further effect. -/
def channelWriteBytes (t : Fin n) (channel : Handle) (bytes : List UInt8) : IpcM n Unit := do
  if bytes.length > channelMaxBytes then fail .messageTooLarge
  let object ← objectWithRights t channel Rights.WRITE
  let (c, side) ← liftExcept (channelEndpoint object)
  let s ← get
  let state := s.channels.cell c
  let peer := side.peer
  if !state.isOpen.get peer then fail .peerClosed
  if (state.queues.get peer).length = channelQueueCapacity then fail .shouldWait
  let free := state.freeMessages.get peer
  let message := free.getLast?.getD .empty
  set (s.modifyChannel c (·.withFreeMessages peer free.dropLast))
  if message.capacity < bytes.length then tryAlloc
  let sent : KernelMessage :=
    { message with bytes := bytes, capacity := max message.capacity bytes.length }
  modify fun s =>
    (s.modifyChannel c fun state =>
      state.withQueue peer (state.queues.get peer ++ [sent])).notifyChannelWaiters c peer

/-- The object a prepared handle would send. -/
def preparedObject (t : Fin n) : PreparedHandle → IpcM n Object
  | .duplicate entry => pure entry.object
  | .move index _ => do
    let s ← get
    let entry ← expect ((s.tables t).slots[index]?.bind (·.entry))
    pure entry.object

/-- Reject a write whose handles own the channel it goes to.  The searches share the
channels they visited. -/
def rejectCycles (t : Fin n) (c : ChannelId) : List PreparedHandle → List ChannelId → IpcM n Unit
  | [], _ => pure ()
  | prepared :: rest, visited => do
    let object ← preparedObject t prepared
    let s ← get
    let (reaches, visited) ← onMemory (objectReachesChannel s.channels object c c visited)
    if reaches then fail .cyclicTransfer
    rejectCycles t c rest visited

def takeAllPrepared (t : Fin n) : List PreparedHandle → IpcM n (List HandleEntry)
  | [] => pure []
  | prepared :: rest => do
    let entry ← takePrepared t prepared
    let entries ← takeAllPrepared t rest
    pure (entry :: entries)

def channelWriteWithHandleOperationsImpl (t : Fin n) (channel : Handle) (bytes : List UInt8)
    (dispositions : List HandleOperationDisposition) : IpcM n Unit := do
  if bytes.length > channelMaxBytes ∨ dispositions.length > channelMaxHandles then
    fail .messageTooLarge
  let object ← objectWithRights t channel Rights.WRITE
  let (c, side) ← liftExcept (channelEndpoint object)
  tryVecWithCapacity dispositions.length
  let prepared ← prepareHandles t [] dispositions
  tryVecWithCapacity bytes.length
  tryVecWithCapacity dispositions.length
  let s ← get
  let state := s.channels.cell c
  let peer := side.peer
  if !state.isOpen.get peer then fail .peerClosed
  if (state.queues.get peer).length = channelQueueCapacity then fail .shouldWait
  rejectCycles t c prepared []
  let handles ← takeAllPrepared t prepared
  modify fun s =>
    (s.modifyChannel c fun state =>
      state.withQueue peer (state.queues.get peer ++ [⟨bytes, bytes.length, handles⟩])
      ).notifyChannelWaiters c peer

def channelWriteWithHandleOperations (t : Fin n) (channel : Handle) (bytes : List UInt8)
    (dispositions : List HandleOperationDisposition) : IpcM n Unit :=
  if dispositions = [] then channelWriteBytes t channel bytes
  else channelWriteWithHandleOperationsImpl t channel bytes dispositions

def channelWriteWithDispositions (t : Fin n) (channel : Handle) (bytes : List UInt8)
    (dispositions : List HandleDisposition) : IpcM n Unit := do
  if bytes.length > channelMaxBytes ∨ dispositions.length > channelMaxHandles then
    fail .messageTooLarge
  if dispositions = [] then channelWriteBytes t channel bytes
  else do
    tryVecWithCapacity dispositions.length
    channelWriteWithHandleOperations t channel bytes
      (dispositions.map fun d => ⟨d.handle, .move, d.rights⟩)

/-- Pair every handle with the rights it has now. -/
def currentDispositions (t : Fin n) : List Handle → IpcM n (List HandleDisposition)
  | [] => pure []
  | handle :: rest => do
    let s ← get
    let rights ← liftExcept ((s.tables t).handleRights handle)
    let dispositions ← currentDispositions t rest
    pure (⟨handle, rights⟩ :: dispositions)

def channelWrite (t : Fin n) (channel : Handle) (bytes : List UInt8) (handles : List Handle) :
    IpcM n Unit := do
  if bytes.length > channelMaxBytes ∨ handles.length > channelMaxHandles then
    fail .messageTooLarge
  if handles = [] then channelWriteBytes t channel bytes
  else do
    tryVecWithCapacity handles.length
    let dispositions ← currentDispositions t handles
    channelWriteWithDispositions t channel bytes dispositions

/-- Install received entries into reserved slots, in message order. -/
def insertAllReserved (t : Fin n) : List HandleEntry → List Nat → IpcM n (List Handle)
  | entry :: entries, slot :: slots => do
    let handle ← insertReserved t slot entry
    let handles ← insertAllReserved t entries slots
    pure (handle :: handles)
  | _, _ => pure []

/-- `bytesLen` and `handlesLen` are the sizes of the output buffers.  The result is what
was written to them. -/
def channelRead (t : Fin n) (channel : Handle) (bytesLen handlesLen : Nat) :
    IpcM n (MessageInfo × List UInt8 × List Handle) := do
  let object ← objectWithRights t channel Rights.READ
  let (c, side) ← liftExcept (channelEndpoint object)
  let s ← get
  let state := s.channels.cell c
  match state.queues.get side with
  | [] => if state.isOpen.get side.peer then fail .shouldWait else fail .peerClosed
  | message :: queue => do
    let info := MessageInfo.new message.bytes.length message.handles.length
    if bytesLen < message.bytes.length ∨ handlesLen < message.handles.length then
      fail (.bufferTooSmall info)
    let slots ← reserveSlots t message.handles.length
    modify (·.modifyChannel c (·.withQueue side queue))
    let handles ← insertAllReserved t message.handles slots
    if message.handles = [] then
      modify (·.modifyChannel c fun state =>
        state.withFreeMessages side (state.freeMessages.get side ++ [{ message with bytes := [] }]))
    modify (·.notifyChannelWaiters c side.peer)
    pure (info, message.bytes, handles)

end Ginkgo.Ipc
