import Ginkgo.Ipc.Channel
import Ginkgo.Ipc.Control
import Ginkgo.Ipc.HandleTable
import Ginkgo.Ipc.Window

/-!
# The capability system

All handle tables, the cells behind the objects they name, and the effects that cross
them: waking waiters and dropping references.  An operation is a program over this
state.  Whatever it did before an error stays done, as in the source.
-/

namespace Ginkgo.Ipc

open Ginkgo.Lib Ginkgo.Sysapi

abbrev StorageId := Nat

/-- Page-backed storage supplied by the kernel. -/
structure SharedMemoryStorage where
  logicalLen : Nat
  mappedLen : Nat
  physicalPages : List Nat
  bytes : List UInt8
  deriving DecidableEq

def SharedMemoryStorage.read (storage : SharedMemoryStorage) (offset length : Nat) :
    Except IpcError (List UInt8) :=
  if offset + length ≤ storage.bytes.length then .ok ((storage.bytes.drop offset).take length)
  else .error .invalidMessage

def SharedMemoryStorage.write (storage : SharedMemoryStorage) (offset : Nat)
    (input : List UInt8) : Except IpcError SharedMemoryStorage :=
  if offset + input.length ≤ storage.bytes.length then
    .ok { storage with
      bytes := storage.bytes.take offset ++ input ++ storage.bytes.drop (offset + input.length) }
  else .error .invalidMessage

structure SharedMemoryBacking where
  identity : Nat
  storage : StorageId
  logicalLen : Nat
  mappedLen : Nat
  physicalPages : List Nat
  deriving DecidableEq

/-- The lengths a storage must report to back a memory object. -/
def SharedMemoryStorage.pageCount (storage : SharedMemoryStorage) : Except IpcError Nat :=
  if storage.logicalLen = 0 then .error .invalidMessage
  else
    match checkedAdd storage.logicalLen (sharedMemoryPageSize - 1) with
    | none => .error .invalidMessage
    | some rounded =>
      if storage.mappedLen ≠ rounded / sharedMemoryPageSize * sharedMemoryPageSize then
        .error .invalidMessage
      else .ok (storage.mappedLen / sharedMemoryPageSize)

/-- One aligned page of its own for every index below the count, and none above. -/
def SharedMemoryStorage.checkPages (storage : SharedMemoryStorage) (pageCount : Nat) :
    Except IpcError Unit :=
  if storage.physicalPages.length = pageCount ∧ storage.physicalPages.Nodup ∧
      ∀ page ∈ storage.physicalPages, page % sharedMemoryPageSize = 0 then .ok ()
  else .error .invalidMessage

/-! ## State -/

/-- One waitable aspect of an object. -/
inductive WaitFacet
  | channel (state : ChannelId) (side : Side)
  | window (state : WindowId) (role : WindowRole)
  | process (state : ProcessControlId)
  | request (state : RequestControlId)
  deriving DecidableEq, Repr

structure WaitSetRegistration where
  token : WaitToken
  facets : List WaitFacet
  deriving DecidableEq

/-- `n` handle tables over one set of cells.  `observers` tells which observers are still
alive, `notified` what they were told, and `memory` how many allocations still succeed. -/
structure System (n : Nat) where
  tables : Fin n → HandleTable
  channels : Heap ChannelState
  windows : Heap WindowState
  processes : Heap ProcessControlState
  requests : Heap RequestControlState
  storages : Heap SharedMemoryStorage
  memories : Heap SharedMemoryBacking
  authorities : Heap SchedulingAuthorityState
  powers : Heap SystemPowerInfo
  registrations : Heap (Option WaitSetRegistration)
  observers : Heap Bool
  nextMemoryIdentity : Nat
  nextObject : Nat
  nextRef : Nat
  notified : List (ObserverId × WaitToken)
  memory : Budget

abbrev IpcM (n : Nat) := EStateM Fault (System n)

namespace System

variable {n : Nat}

def init (n : Nat) : System n where
  tables := fun _ => .new
  channels := .empty .unallocated
  windows := .empty .unallocated
  processes := .empty .new
  requests := .empty .unallocated
  storages := .empty ⟨0, 0, [], []⟩
  memories := .empty ⟨0, 0, 0, 0, []⟩
  authorities := .empty ⟨.normal, false, 0⟩
  powers := .empty .default
  registrations := .empty none
  observers := .empty false
  nextMemoryIdentity := 1
  nextObject := 0
  nextRef := 0
  notified := []
  memory := none

def withTable (s : System n) (t : Fin n) (table : HandleTable) : System n :=
  { s with tables := Function.update s.tables t table }

def modifyChannel (s : System n) (c : ChannelId) (f : ChannelState → ChannelState) : System n :=
  { s with channels := s.channels.modify c f }

def setWindow (s : System n) (w : WindowId) (state : WindowState) : System n :=
  { s with windows := s.windows.modify w fun _ => state }

/-! ## Waking waiters -/

def facetSignals (s : System n) : WaitFacet → Signals
  | .channel c side => channelSignals (s.channels.cell c) side
  | .window w role => windowSignals (s.windows.cell w) role
  | .process p => processSignals (s.processes.cell p)
  | .request r => requestSignals (s.requests.cell r)

def facetWaiters (s : System n) : WaitFacet → List SignalWaiter
  | .channel c side => (s.channels.cell c).waiters.get side
  | .window w role => (s.windows.cell w).waiters.get (windowRoleIndex role)
  | .process p => (s.processes.cell p).waiters
  | .request r => (s.requests.cell r).waiters

def withFacetWaiters (s : System n) (facet : WaitFacet) (waiters : List SignalWaiter) : System n :=
  match facet with
  | .channel c side => s.modifyChannel c (·.withWaiters side waiters)
  | .window w role => s.setWindow w ((s.windows.cell w).withWaiters role waiters)
  | .process p => { s with processes := s.processes.modify p ({ · with waiters := waiters }) }
  | .request r => { s with requests := s.requests.modify r ({ · with waiters := waiters }) }

/-- The callbacks made for waiters that were taken: those of observers still alive. -/
def deliveries (s : System n) (waiters : List SignalWaiter) : List (ObserverId × WaitToken) :=
  (waiters.filter (fun w => s.observers.cell w.observer)).map (fun w => (w.observer, w.token))

/-- Mark and remove the waiters of one facet that its current level meets. -/
def notifyFacet (s : System n) (facet : WaitFacet) : System n :=
  let (taken, retained) := notifyWaiters (s.facetWaiters facet) (s.facetSignals facet)
  { s.withFacetWaiters facet retained with notified := s.notified ++ s.deliveries taken }

def notifyChannelWaiters (s : System n) (c : ChannelId) (side : Side) : System n :=
  s.notifyFacet (.channel c side)

def notifyWindowWaiters (s : System n) (w : WindowId) (role : WindowRole) : System n :=
  s.notifyFacet (.window w role)

def notifyProcessWaiters (s : System n) (p : ProcessControlId) : System n :=
  s.notifyFacet (.process p)

def notifyRequestWaiters (s : System n) (r : RequestControlId) : System n :=
  s.notifyFacet (.request r)

/-! ## Dropping references -/

/-- Another strong reference to the object exists: in a table, in a queue, or among the
references still to be dropped. -/
def referenced (s : System n) (id : Nat) (pending : List HandleEntry) : Bool :=
  pending.any (·.object.id == id) ||
    (List.finRange n).any (fun t => (s.tables t).entries.any (·.object.id == id)) ||
    (List.range s.channels.next).any (fun c =>
      (s.channels.cell c).carried.any (·.object.id == id))

/-- `ChannelEndpoint::drop`, with the discarded queue left to the caller. -/
def closeChannel (s : System n) (c : ChannelId) (side : Side) : System n :=
  let s := s.modifyChannel c (·.close side)
  let s := s.notifyChannelWaiters c side
  s.notifyChannelWaiters c side.peer

/-- `WindowEndpoint::drop`. -/
def closeWindow (s : System n) (w : WindowId) (role : WindowRole) : System n :=
  let s := s.setWindow w ((s.windows.cell w).close role)
  let s := s.notifyWindowWaiters w .client
  s.notifyWindowWaiters w .manager

/-- Drop one reference.  The last one runs the object's destructor, and the references in
a queue discarded by it are dropped before the rest. -/
def dropEntry (s : System n) (entry : HandleEntry) (rest : List HandleEntry) :
    System n × List HandleEntry :=
  if s.referenced entry.object.id rest then (s, rest)
  else
    match entry.object.kernel with
    | .channel c side =>
      (s.closeChannel c side, ((s.channels.cell c).queues.get side).flatMap (·.handles) ++ rest)
    | .window w role => (s.closeWindow w role, rest)
    | _ => (s, rest)

/-- References carried by queued messages. -/
def queuedCount (s : System n) : Nat :=
  ∑ c ∈ Finset.range s.channels.next, (s.channels.cell c).carried.length

def queue (s : System n) (c : ChannelId) (side : Side) : List KernelMessage :=
  (s.channels.cell c).queues.get side

def isOpen (s : System n) (c : ChannelId) (side : Side) : Bool :=
  (s.channels.cell c).isOpen.get side

def freeMessages (s : System n) (c : ChannelId) (side : Side) : List KernelMessage :=
  (s.channels.cell c).freeMessages.get side

end System

section Primitives

variable {n : Nat}

def dropLoop : Nat → List HandleEntry → IpcM n Unit
  | _, [] => pure ()
  | 0, _ :: _ => throw .diverged
  | fuel + 1, entry :: rest => do
    let s ← get
    let (s', rest') := s.dropEntry entry rest
    set s'
    dropLoop fuel rest'

/-- Drop references in order. -/
def dropEntries (entries : List HandleEntry) : IpcM n Unit := do
  let s ← get
  dropLoop (entries.length + s.queuedCount) entries

def fail {α : Type} (e : IpcError) : IpcM n α := throw (.error e)

def liftExcept {α : Type} : Except IpcError α → IpcM n α
  | .ok a => pure a
  | .error e => fail e

/-- An `expect` on a value that should be there. -/
def expect {α : Type} : Option α → IpcM n α
  | some a => pure a
  | none => throw .panicked

/-- Run an allocating computation against the system's memory. -/
def onMemory {α : Type} (x : EStateM Fault Budget α) : IpcM n α :=
  zoom (·.memory) (fun m s => { s with memory := m }) x

def tryAlloc : IpcM n Unit := onMemory (alloc (.error .outOfMemory))

def tryVecWithCapacity (capacity : Nat) : IpcM n Unit :=
  onMemory (allocCapacity (.error .outOfMemory) capacity)

def entry (t : Fin n) (handle : Handle) : IpcM n HandleEntry := do
  let s ← get
  liftExcept ((s.tables t).entry handle)

def objectWithRights (t : Fin n) (handle : Handle) (required : Rights) : IpcM n Object := do
  let s ← get
  liftExcept ((s.tables t).objectWithRights handle required)

def reserveSlots (t : Fin n) (count : Nat) : IpcM n (List Nat) := do
  let s ← get
  let (slots, table) ← onMemory ((s.tables t).reserveSlots count)
  modify (·.withTable t table)
  pure slots

def insertReserved (t : Fin n) (index : Nat) (entry : HandleEntry) : IpcM n Handle := do
  let s ← get
  let (handle, table) ← expect ((s.tables t).insertReserved index entry)
  set (s.withTable t table)
  pure handle

/-- A fresh name for a reference: the result of `Arc::clone`. -/
def mintRef : IpcM n Nat := do
  let s ← get
  set { s with nextRef := s.nextRef + 1 }
  pure s.nextRef

/-- The first reference to a new object.  Its allocation has been paid for before. -/
def mintObject (kernel : KernelObject) (rights : Rights) : IpcM n HandleEntry := do
  let s ← get
  set { s with nextObject := s.nextObject + 1 }
  let ref ← mintRef
  pure ⟨⟨s.nextObject, kernel⟩, rights, ref⟩

end Primitives

/-! ## What an update leaves alone -/

namespace System

variable {n : Nat} (s : System n)

@[simp] theorem tables_withTable_self (t : Fin n) (table : HandleTable) :
    (s.withTable t table).tables t = table := by
  simp [withTable]

theorem tables_withTable_of_ne {t u : Fin n} (table : HandleTable) (h : u ≠ t) :
    (s.withTable t table).tables u = s.tables u := by
  simp [withTable, h]

@[simp] theorem queue_withTable (t : Fin n) (table : HandleTable) :
    (s.withTable t table).queue = s.queue := rfl

theorem cell_modifyChannel (c d : ChannelId) (f : ChannelState → ChannelState) :
    (s.modifyChannel c f).channels.cell d =
      if d = c then f (s.channels.cell c) else s.channels.cell d :=
  s.channels.cell_modify f c d

theorem cell_setWindow (w v : WindowId) (st : WindowState) :
    (s.setWindow w st).windows.cell v = if v = w then st else s.windows.cell v :=
  s.windows.cell_modify (fun _ => st) w v

theorem queue_withQueue (c d : ChannelId) (side side' : Side) (q : List KernelMessage) :
    (s.modifyChannel c (·.withQueue side q)).queue d side' =
      if d = c ∧ side' = side then q else s.queue d side' := by
  unfold System.queue
  rw [cell_modifyChannel]
  by_cases hd : d = c
  · simp [hd, ChannelState.withQueue, Sided.get_set]
  · simp [hd]

theorem queue_close (c d : ChannelId) (side side' : Side) :
    (s.modifyChannel c (·.close side)).queue d side' =
      if d = c ∧ side' = side then [] else s.queue d side' := by
  unfold System.queue
  rw [cell_modifyChannel]
  by_cases hd : d = c
  · simp [hd, ChannelState.close, Sided.get_set]
  · simp [hd]

theorem isOpen_close (c d : ChannelId) (side side' : Side) :
    (s.modifyChannel c (·.close side)).isOpen d side' =
      if d = c ∧ side' = side then false else s.isOpen d side' := by
  unfold System.isOpen
  rw [cell_modifyChannel]
  by_cases hd : d = c
  · simp [hd, ChannelState.close, Sided.get_set]
  · simp [hd]

theorem cell_modifyChannel_congr {α : Type} (field : ChannelState → α) (c d : ChannelId)
    {f : ChannelState → ChannelState} (h : ∀ st, field (f st) = field st) :
    field ((s.modifyChannel c f).channels.cell d) = field (s.channels.cell d) :=
  s.channels.cell_modify_congr field h c d

variable (facet : WaitFacet) (waiters : List SignalWaiter)

theorem channel_withFacetWaiters {α : Type} (field : ChannelState → α)
    (h : ∀ state side waiters, field (ChannelState.withWaiters state side waiters) = field state)
    (c : ChannelId) :
    field ((s.withFacetWaiters facet waiters).channels.cell c) = field (s.channels.cell c) := by
  cases facet with
  | channel d side => exact s.cell_modifyChannel_congr field d c (fun state => h state side waiters)
  | _ => rfl

theorem window_withFacetWaiters {α : Type} (field : WindowState → α)
    (h : ∀ st role waiters, field (WindowState.withWaiters st role waiters) = field st)
    (w : WindowId) :
    field ((s.withFacetWaiters facet waiters).windows.cell w) = field (s.windows.cell w) := by
  cases facet with
  | window v role =>
    change field ((s.setWindow v _).windows.cell w) = _
    rw [cell_setWindow]
    split
    · rename_i hw
      rw [h, hw]
    · rfl
  | _ => rfl

@[simp] theorem tables_withFacetWaiters : (s.withFacetWaiters facet waiters).tables = s.tables := by
  cases facet <;> rfl

@[simp] theorem tables_notifyFacet : (s.notifyFacet facet).tables = s.tables :=
  s.tables_withFacetWaiters facet _

@[simp] theorem observers_withFacetWaiters :
    (s.withFacetWaiters facet waiters).observers = s.observers := by
  cases facet <;> rfl

@[simp] theorem notified_withFacetWaiters :
    (s.withFacetWaiters facet waiters).notified = s.notified := by
  cases facet <;> rfl

@[simp] theorem nextObject_withFacetWaiters :
    (s.withFacetWaiters facet waiters).nextObject = s.nextObject := by
  cases facet <;> rfl

@[simp] theorem nextRef_withFacetWaiters :
    (s.withFacetWaiters facet waiters).nextRef = s.nextRef := by
  cases facet <;> rfl

@[simp] theorem channels_next_withFacetWaiters :
    (s.withFacetWaiters facet waiters).channels.next = s.channels.next := by
  cases facet <;> rfl

@[simp] theorem windows_next_withFacetWaiters :
    (s.withFacetWaiters facet waiters).windows.next = s.windows.next := by
  cases facet <;> rfl

@[simp] theorem processes_next_withFacetWaiters :
    (s.withFacetWaiters facet waiters).processes.next = s.processes.next := by
  cases facet <;> rfl

@[simp] theorem requests_next_withFacetWaiters :
    (s.withFacetWaiters facet waiters).requests.next = s.requests.next := by
  cases facet <;> rfl

@[simp] theorem queue_withFacetWaiters : (s.withFacetWaiters facet waiters).queue = s.queue := by
  funext c side
  exact s.channel_withFacetWaiters facet waiters (·.queues.get side) (fun _ _ _ => rfl) c

@[simp] theorem isOpen_withFacetWaiters : (s.withFacetWaiters facet waiters).isOpen = s.isOpen := by
  funext c side
  exact s.channel_withFacetWaiters facet waiters (·.isOpen.get side) (fun _ _ _ => rfl) c

@[simp] theorem freeMessages_withFacetWaiters :
    (s.withFacetWaiters facet waiters).freeMessages = s.freeMessages := by
  funext c side
  exact s.channel_withFacetWaiters facet waiters (·.freeMessages.get side) (fun _ _ _ => rfl) c

theorem facetSignals_withFacetWaiters :
    (s.withFacetWaiters facet waiters).facetSignals = s.facetSignals := by
  funext other
  cases other with
  | channel c side =>
    exact s.channel_withFacetWaiters facet waiters (channelSignals · side) (fun _ _ _ => rfl) c
  | window w role =>
    exact s.window_withFacetWaiters facet waiters (windowSignals · role) (fun _ _ _ => rfl) w
  | process p =>
    cases facet with
    | process q =>
      exact s.processes.cell_modify_congr processSignals (f := ({ · with waiters := waiters }))
        (fun _ => rfl) q p
    | _ => rfl
  | request r =>
    cases facet with
    | request q =>
      exact s.requests.cell_modify_congr requestSignals (f := ({ · with waiters := waiters }))
        (fun _ => rfl) q r
    | _ => rfl

end System

end Ginkgo.Ipc
