import Ginkgo.Ipc.Trace
import Mathlib.Tactic.Abel

/-!
# Custody of references

The system seen as a machine that moves single references.  A frame is a system state in
the middle of an operation: the references in hand, which have left one place and not
reached the next, the references about to be dropped, and the facets whose level changed
and that have not been notified yet.  Between operations all three are empty.

Every operation is a sequence of the moves below.  An invariant of the moves is therefore
an invariant of every run, and no invariant looks at an operation again.
-/

namespace Ginkgo.Ipc

open Ginkgo.Lib Ginkgo.Sysapi

variable {n : Nat}

structure Frame (n : Nat) where
  sys : System n
  hand : List HandleEntry
  doomed : List HandleEntry
  dirty : List WaitFacet

/-- A system between operations. -/
def System.frame (s : System n) : Frame n := ⟨s, [], [], []⟩

/-- The cell that an object names exists. -/
def KernelObject.Allocated (s : System n) : KernelObject → Prop
  | .channel c _ => c < s.channels.next
  | .window w _ => w < s.windows.next
  | .process p => p < s.processes.next
  | .request r => r < s.requests.next
  | _ => True

def WaitFacet.Allocated (s : System n) : WaitFacet → Prop
  | .channel c _ => c < s.channels.next
  | .window w _ => w < s.windows.next
  | .process p => p < s.processes.next
  | .request r => r < s.requests.next

def KernelObject.isChannel : KernelObject → Bool
  | .channel .. => true
  | _ => false

/-- The rights that an object can be created with. -/
def KernelObject.CreatedWith (rights : Rights) : KernelObject → Prop
  | .channel .. => rights = channelDefaultRights
  | .sharedMemory _ => rights = sharedMemoryDefaultRights
  | .window _ .client => rights = windowClientRights
  | .window _ .manager => rights = windowManagerRights
  | .process _ => rights = processDefaultRights
  | .request _ => rights = requestDefaultRights
  | .applicationData _ => rights = Rights.READ ||| Rights.TRANSFER
  | .systemPower _ => rights = Rights.MANAGE ||| Rights.INSPECT
  | .schedulingAuthority _ => rights = Rights.SCHEDULE ||| Rights.INSPECT
  | .filesystemRoot =>
    Bitflags.contains (Rights.READ ||| Rights.WRITE ||| Rights.EXECUTE) rights = true
  | .directory _ =>
    Bitflags.contains (Rights.READ ||| Rights.WRITE ||| Rights.DUPLICATE ||| Rights.TRANSFER)
      rights = true
  | .file _ =>
    ¬(Bitflags.contains rights Rights.EXECUTE = true ∧ Bitflags.contains rights Rights.WRITE = true)
  | .randomSource => rights = Rights.READ ||| Rights.DUPLICATE

/-- Channel `c` has a queued message that carries an endpoint of `d`. -/
def System.Carries (s : System n) : ChannelId → ChannelId → Prop :=
  Graph.Edge fun c => (s.channels.cell c).outgoing

/-- Everything that references and waiters depend on is the same; names may have been
spent and observers told something. -/
structure SameObjects (s s' : System n) : Prop where
  tables : s'.tables = s.tables
  channels : s'.channels = s.channels
  windows : s'.windows = s.windows
  processes : s'.processes = s.processes
  requests : s'.requests = s.requests
  observers : s'.observers = s.observers
  nextObject : s.nextObject ≤ s'.nextObject
  nextRef : s.nextRef ≤ s'.nextRef
  notified : ∃ more, s'.notified = s.notified ++ more

/-- Every reference held by a table or a queue. -/
def System.held (s : System n) : Multiset HandleEntry :=
  (∑ t, ((s.tables t).entries : Multiset HandleEntry)) +
    ∑ c ∈ Finset.range s.channels.next, ((s.channels.cell c).carried : Multiset HandleEntry)

/-- Every reference there is. -/
def Frame.total (F : Frame n) : Multiset HandleEntry :=
  F.sys.held + (F.hand : Multiset HandleEntry) + (F.doomed : Multiset HandleEntry)

def Event.isWindow : Event n → Bool
  | .presented .. | .released .. => true
  | _ => false

/-- A step of one window: what the client sees of it, and the next state. -/
inductive WindowStep (w : WindowId) : WindowState → List (Event n) → WindowState → Prop
  | present {state state' : WindowState} {bufferIndex generation : Nat}
      {presentation : WindowPresentation}
      (h : state.present bufferIndex generation = .ok (presentation, state')) :
      WindowStep w state [.presented w presentation] state'
  | readRelease {state state' : WindowState} {release : WindowRelease}
      (h : state.readRelease = .ok (release, state')) :
      WindowStep w state [.released w release] state'
  | discardPending {state state' : WindowState} {presentation : WindowPresentation}
      (h : state.discardPending presentation = .ok state') : WindowStep w state [] state'
  | coalescePending {state state' : WindowState} {pending replacement : WindowPresentation}
      {replacementBufferIndex generation : Nat}
      (h : state.coalescePending pending replacementBufferIndex generation =
        .ok (replacement, state')) :
      WindowStep w state [.presented w replacement] state'
  | complete {state state' : WindowState} {presentation : WindowPresentation}
      {successful : Bool} (h : state.complete presentation successful = .ok (some state')) :
      WindowStep w state [] state'
  | retire {state state' : WindowState} (h : state.retire = .ok (some state')) :
      WindowStep w state [] state'
  | close {state : WindowState} (role : WindowRole) : WindowStep w state [] (state.close role)

/-- Moves of references between tables, queues and the operation in progress. -/
inductive Transfer : Frame n → List (Event n) → Frame n → Prop
  | grow {s : System n} {hand doomed : List HandleEntry} {dirty : List WaitFacet} (t : Fin n)
      {count : Nat}
      (hfits : (s.tables t).slots.length ≤ handleTableCapacity →
        ((s.tables t).grow count).slots.length ≤ handleTableCapacity) :
      Transfer ⟨s, hand, doomed, dirty⟩ []
        ⟨s.withTable t ((s.tables t).grow count), hand, doomed, dirty⟩
  /-- A new object and its first reference. -/
  | create {s : System n} (t : Fin n) {index generation : Nat} {kernel : KernelObject}
      {rights : Rights} (hvacant : (s.tables t).VacantAt index generation)
      (hkernel : kernel.isChannel = false) (hcell : kernel.Allocated s)
      (hrights : kernel.CreatedWith rights) :
      Transfer s.frame [.created t ⟨s.nextObject, kernel⟩ rights,
          .issued t (handleFromParts index generation)]
        ({ s with nextObject := s.nextObject + 1, nextRef := s.nextRef + 1 }.withTable t
          ((s.tables t).fill index generation ⟨⟨s.nextObject, kernel⟩, rights, s.nextRef⟩)).frame
  /-- A new channel with a first reference to each end. -/
  | createChannel {s s1 s2 : System n} (left right : Fin n) {leftIndex leftGeneration : Nat}
      {rightIndex rightGeneration : Nat}
      (hs1 : s1 = { s with
        channels := s.channels.alloc .new
        nextObject := s.nextObject + 2
        nextRef := s.nextRef + 2 })
      (hleft : (s1.tables left).VacantAt leftIndex leftGeneration)
      (hs2 : s2 = s1.withTable left ((s1.tables left).fill leftIndex leftGeneration
        ⟨⟨s.nextObject, .channel s.channels.next .left⟩, channelDefaultRights, s.nextRef⟩))
      (hright : (s2.tables right).VacantAt rightIndex rightGeneration) :
      Transfer s.frame
        [.created left ⟨s.nextObject, .channel s.channels.next .left⟩ channelDefaultRights,
          .issued left (handleFromParts leftIndex leftGeneration),
          .created right ⟨s.nextObject + 1, .channel s.channels.next .right⟩ channelDefaultRights,
          .issued right (handleFromParts rightIndex rightGeneration)]
        (s2.withTable right ((s2.tables right).fill rightIndex rightGeneration
          ⟨⟨s.nextObject + 1, .channel s.channels.next .right⟩, channelDefaultRights,
            s.nextRef + 1⟩)).frame
  /-- A reference leaves a table to be moved, possibly with fewer rights. -/
  | take {s : System n} {hand : List HandleEntry} (t : Fin n) {index generation : Nat}
      {entry : HandleEntry} {rights : Rights}
      (hslot : (s.tables t).OccupiedAt index generation entry)
      (htransfer : Bitflags.contains entry.rights Rights.TRANSFER = true)
      (hrights : Bitflags.contains entry.rights rights = true) :
      Transfer ⟨s, hand, [], []⟩ [] ⟨s.withTable t ((s.tables t).vacate index generation),
          hand ++ [{ entry with rights := rights }], [], []⟩
  /-- A reference is cloned, possibly with fewer rights. -/
  | clone {s : System n} {hand : List HandleEntry} (t : Fin n) {index generation : Nat}
      {entry : HandleEntry} {rights : Rights} {ref : Nat}
      (hslot : (s.tables t).OccupiedAt index generation entry)
      (hduplicate : Bitflags.contains entry.rights Rights.DUPLICATE = true)
      (hrights : Bitflags.contains entry.rights rights = true) (href : ref < s.nextRef)
      (hfresh : ∀ e ∈ Frame.total ⟨s, hand, [], []⟩, e.ref < ref) :
      Transfer ⟨s, hand, [], []⟩ [] ⟨s, hand ++ [⟨entry.object, rights, ref⟩], [], []⟩
  | install {s : System n} {entry : HandleEntry} {hand : List HandleEntry}
      {dirty : List WaitFacet} (t : Fin n) {index generation : Nat}
      (hvacant : (s.tables t).VacantAt index generation) :
      Transfer ⟨s, entry :: hand, [], dirty⟩ [.issued t (handleFromParts index generation)]
        ⟨s.withTable t ((s.tables t).fill index generation entry), hand, [], dirty⟩
  /-- Everything in hand leaves as one message for `side`. -/
  | send {s : System n} (c : ChannelId) (side : Side) {message : KernelMessage}
      (hcell : c < s.channels.next) (hopen : s.isOpen c side = true)
      (hroom : (s.queue c side).length < channelQueueCapacity)
      (hcycle : ∀ e ∈ message.handles, ∀ d, e.channel? = some d →
        ¬Relation.ReflTransGen s.Carries d c) :
      Transfer ⟨s, message.handles, [], []⟩ [.sent c side message.payload]
        ⟨s.modifyChannel c (·.withQueue side (s.queue c side ++ [message])), [], [],
          [.channel c side]⟩
  | receive {s : System n} (c : ChannelId) (side : Side) {message : KernelMessage}
      {queue : List KernelMessage} (hcell : c < s.channels.next)
      (hqueue : s.queue c side = message :: queue) :
      Transfer s.frame [.received c side message.payload]
        ⟨s.modifyChannel c (·.withQueue side queue), message.handles, [], [.channel c side.peer]⟩

/-- Moves that end references. -/
inductive Release : Frame n → List (Event n) → Frame n → Prop
  /-- A handle is closed and its reference is about to be dropped. -/
  | close {s : System n} (t : Fin n) {handle : Handle} {index generation : Nat}
      {entry : HandleEntry} (hparts : handleParts handle = some (index, generation))
      (hslot : (s.tables t).OccupiedAt index generation entry) :
      Release s.frame [.closed t handle]
        ⟨s.withTable t ((s.tables t).vacate index generation), [], [entry], []⟩
  /-- A reference is dropped and the object needs no destructor. -/
  | drop {s : System n} {entry : HandleEntry} {rest : List HandleEntry}
      (hkeep : s.referenced entry.object.id rest = true ∨
        (∀ c side, entry.object.kernel ≠ .channel c side)) :
      Release ⟨s, [], entry :: rest, []⟩ [] ⟨s, [], rest, []⟩
  /-- The last reference to a channel endpoint is dropped. -/
  | dropChannel {s : System n} {entry : HandleEntry} {rest : List HandleEntry}
      (c : ChannelId) (side : Side) (hcell : c < s.channels.next)
      (hlast : s.referenced entry.object.id rest = false)
      (hkernel : entry.object.kernel = .channel c side) :
      Release ⟨s, [], entry :: rest, []⟩ [] ⟨s.modifyChannel c (·.close side), [],
          (s.queue c side).flatMap (·.handles) ++ rest,
          [.channel c side, .channel c side.peer]⟩

/-- Moves that change the objects behind references and leave the references alone. -/
inductive Service : Frame n → List (Event n) → Frame n → Prop
  | silent {s s' : System n} {hand doomed : List HandleEntry} {dirty : List WaitFacet}
      (h : SameObjects s s') : Service ⟨s, hand, doomed, dirty⟩ [] ⟨s', hand, doomed, dirty⟩
  /-- The cached messages of one side change; they are always empty. -/
  | cache {s : System n} {hand : List HandleEntry} {dirty : List WaitFacet} (c : ChannelId)
      (side : Side) {messages : List KernelMessage} (hcell : c < s.channels.next)
      (hempty : ∀ m ∈ messages, m.bytes = [] ∧ m.handles = []) :
      Service ⟨s, hand, [], dirty⟩ []
        ⟨s.modifyChannel c (·.withFreeMessages side messages), hand, [], dirty⟩
  | newWindow {s : System n} (sharedMemory : MemoryId) (bufferLen generation : Nat)
      {bufferCount : Nat} (hcount : 2 ≤ bufferCount) :
      Service s.frame [] { s with
          windows := s.windows.alloc (.new sharedMemory bufferLen generation bufferCount) }.frame
  | newProcess {s : System n} :
      Service s.frame [] { s with processes := s.processes.alloc .new }.frame
  | newRequest {s : System n} {requestId : Nat} {info : RequestInfo} : Service s.frame []
        { s with requests := s.requests.alloc ⟨requestId, info, false, []⟩ }.frame
  | window {s : System n} {doomed : List HandleEntry} {state : WindowState}
      {events : List (Event n)} (w : WindowId) (hcell : w < s.windows.next)
      (hstep : WindowStep w (s.windows.cell w) events state) :
      Service ⟨s, [], doomed, []⟩ events
        ⟨s.setWindow w state, [], doomed, [.window w .client, .window w .manager]⟩
  /-- The manager read part of the pending buffer. -/
  | readPending {s : System n} (w : WindowId) (hcell : w < s.windows.next) :
      Service s.frame [] (s.setWindow w { s.windows.cell w with pendingRead := true }).frame
  /-- The published outcome of a process changes. -/
  | publishProcess {s : System n} (p : ProcessControlId) (info : ProcessInfo)
      (hcell : p < s.processes.next) :
      Service s.frame []
        ⟨{ s with processes := s.processes.modify p ({ · with info := info }) }, [], [],
          [.process p]⟩
  /-- Anything else about a process changes. -/
  | process {s : System n} {f : ProcessControlState → ProcessControlState}
      (p : ProcessControlId) (more : List (ObserverId × WaitToken))
      (hcell : p < s.processes.next) (hinfo : ∀ state, (f state).info = state.info)
      (hwaiters : ∀ state, (f state).waiters = state.waiters) :
      Service s.frame [] { s with
          processes := s.processes.modify p f
          notified := s.notified ++ more }.frame
  | publishRequest {s : System n} (r : RequestControlId) (info : RequestInfo)
      (hcell : r < s.requests.next) :
      Service s.frame []
        ⟨{ s with requests := s.requests.modify r ({ · with info := info }) }, [], [], [.request r]⟩
  | request {s : System n} (r : RequestControlId) (hcell : r < s.requests.next) : Service s.frame []
        { s with requests := s.requests.modify r ({ · with cancelRequested := true }) }.frame
  | notify {s : System n} {hand doomed : List HandleEntry} {facet : WaitFacet}
      {dirty : List WaitFacet} :
      Service ⟨s, hand, doomed, facet :: dirty⟩ [] ⟨s.notifyFacet facet, hand, doomed, dirty⟩

/-- Moves of the owners of wait registrations.  They change no signal. -/
inductive Wait : Frame n → List (Event n) → Frame n → Prop
  | silent {s s' : System n} (h : SameObjects s s') : Wait s.frame [] s'.frame
  | observers {s : System n} {observers : Heap Bool} :
      Wait s.frame [] { s with observers := observers }.frame
  /-- A waiter joins a facet whose level does not meet it. -/
  | register {s : System n} (facet : WaitFacet) (waiter : SignalWaiter) (hcell : facet.Allocated s)
      (hlevel : Bitflags.intersects (s.facetSignals facet) waiter.waitFor = false)
      (hflag : waiter.notifying = false) :
      Wait s.frame [] (s.withFacetWaiters facet (s.facetWaiters facet ++ [waiter])).frame
  | unregister {s : System n} (facet : WaitFacet) (token : WaitToken) :
      Wait s.frame [] (s.unregisterFacet token facet).frame

inductive Kind
  | transfer
  | release
  | service
  | wait
  deriving DecidableEq

/-- A move of one of the kinds in `kinds`. -/
inductive Moves (kinds : Set Kind) (F : Frame n) (events : List (Event n)) (F' : Frame n) : Prop
  | transfer (hkind : Kind.transfer ∈ kinds) (h : Transfer F events F')
  | release (hkind : Kind.release ∈ kinds) (h : Release F events F')
  | service (hkind : Kind.service ∈ kinds) (h : Service F events F')
  | wait (hkind : Kind.wait ∈ kinds) (h : Wait F events F')

/-!
## Conservation of references

What each move does to the collection of all references.  A reference appears when an
object is created or a reference is cloned, changes its rights when it is taken, and
disappears when it is dropped.  Nothing else touches the collection.
-/

open List Multiset HandleTable Finset

theorem sum_add_of_agree {ι M : Type} [DecidableEq ι] [AddCommMonoid M] {I : Finset ι}
    {f g : ι → M} {i : ι} (hi : i ∈ I) (h : ∀ j ∈ I, j ≠ i → f j = g j) :
    ∑ j ∈ I, f j + g i = ∑ j ∈ I, g j + f i := by
  have herase : ∑ j ∈ I.erase i, f j = ∑ j ∈ I.erase i, g j :=
    Finset.sum_congr rfl fun j hj => h j (Finset.mem_of_mem_erase hj) (Finset.ne_of_mem_erase hj)
  rw [← add_sum_erase I f hi, ← add_sum_erase I g hi, herase]
  rw [add_comm (f i), add_comm (g i), add_assoc, add_assoc, add_comm (f i)]

namespace System

variable {s : System n} {generation : Nat} {e : HandleEntry} {t : Fin n} {i : Nat} {c : ChannelId}
  {side : Side}

theorem carried_eq (c : ChannelId) :
    (s.channels.cell c).carried = (s.queue c .left ++ s.queue c .right).flatMap (·.handles) :=
  rfl

theorem held_congr {s s' : System n} (htabs : s'.tables = s.tables)
    (hnext : s'.channels.next = s.channels.next) (hq : s'.queue = s.queue) :
    s'.held = s.held := by
  unfold held
  rw [htabs, hnext]
  congr 1
  refine sum_congr rfl fun c _ => ?_
  rw [carried_eq, carried_eq, hq]

theorem held_withTable (t : Fin n) (table : HandleTable) :
    (s.withTable t table).held + ((s.tables t).entries : Multiset HandleEntry) =
      s.held + (table.entries : Multiset HandleEntry) := by
  have hsum := sum_add_of_agree (mem_univ t)
    (f := fun u => (((s.withTable t table).tables u).entries : Multiset HandleEntry))
    (fun u _ hu => by rw [s.tables_withTable_of_ne table hu])
  simp only [tables_withTable_self] at hsum
  unfold held
  calc _ = (∑ u, (((s.withTable t table).tables u).entries : Multiset HandleEntry) +
            ((s.tables t).entries)) + ∑ c ∈ range s.channels.next,
            ((s.channels.cell c).carried : Multiset HandleEntry) := by
        exact add_right_comm _ _ _
    _ = _ := by rw [hsum, add_right_comm]

theorem held_fill (h : (s.tables t).VacantAt i generation) :
    (s.withTable t ((s.tables t).fill i generation e)).held = e ::ₘ s.held := by
  have hsum := s.held_withTable t ((s.tables t).fill i generation e)
  rw [coe_eq_coe.mpr (entries_fill h), ← cons_coe, add_cons, ← cons_add] at hsum
  exact add_right_cancel hsum

theorem held_vacate (h : (s.tables t).OccupiedAt i generation e) :
    s.held = e ::ₘ (s.withTable t ((s.tables t).vacate i generation)).held := by
  have hsum := s.held_withTable t ((s.tables t).vacate i generation)
  rw [coe_eq_coe.mpr (entries_vacate h), ← cons_coe, add_cons, ← cons_add] at hsum
  exact (add_right_cancel hsum).symm

theorem held_grow (t : Fin n) (count : Nat) :
    (s.withTable t ((s.tables t).grow count)).held = s.held := by
  have hsum := s.held_withTable t ((s.tables t).grow count)
  rw [entries_grow] at hsum
  exact add_right_cancel hsum

theorem held_queue (s s' : System n) (c : ChannelId) (side : Side)
    (htabs : s'.tables = s.tables) (hnext : s'.channels.next = s.channels.next)
    (hcell : c < s.channels.next)
    (hq : ∀ d side', ¬(d = c ∧ side' = side) → s'.queue d side' = s.queue d side') :
    s'.held + ((s.queue c side).flatMap (·.handles) : Multiset HandleEntry) =
      s.held + ((s'.queue c side).flatMap (·.handles) : Multiset HandleEntry) := by
  have hcarried (s : System n) d :
      ((s.channels.cell d).carried) =
        ((s.queue d side).flatMap (·.handles)) +
          ((s.queue d side.peer).flatMap (·.handles) : Multiset HandleEntry) := by
    rw [carried_eq, flatMap_append, ← coe_add]
    cases side with
    | left => rfl
    | right => exact add_comm _ _
  have hsum := sum_add_of_agree (mem_range.mpr hcell)
    (f := fun d => ((s'.channels.cell d).carried : Multiset HandleEntry))
    (g := fun d => ((s.channels.cell d).carried)) (fun d _ hd => by
      rw [hcarried, hcarried, hq d side (fun h => hd h.1), hq d side.peer (fun h => hd h.1)])
  have hpeer : s'.queue c side.peer = s.queue c side.peer :=
    hq c side.peer fun h => Side.peer_ne side h.2
  simp only [hcarried s c, hcarried s' c, hpeer] at hsum
  rw [← add_assoc, ← add_assoc] at hsum
  have hcells := add_right_cancel hsum
  unfold held
  rw [htabs, hnext, add_assoc, hcells, add_assoc]

theorem held_close (side : Side) (hcell : c < s.channels.next) :
    (s.modifyChannel c (·.close side)).held + ((s.queue c side).flatMap (·.handles)) = s.held := by
  have hsum := s.held_queue (s.modifyChannel c (·.close side)) c side rfl rfl hcell
    (fun d side' hne => by rw [s.queue_close c d side side', if_neg hne])
  rwa [s.queue_close, if_pos ⟨rfl, rfl⟩, flatMap_nil, coe_nil, add_zero] at hsum

@[simp] theorem held_withFacetWaiters (facet : WaitFacet) (waiters : List SignalWaiter) :
    (s.withFacetWaiters facet waiters).held = s.held :=
  held_congr (by simp) (by simp) (by simp)

@[simp] theorem held_notifyFacet (facet : WaitFacet) : (s.notifyFacet facet).held = s.held :=
  s.held_withFacetWaiters facet _

theorem held_alloc_channel : { s with channels := s.channels.alloc .new }.held = s.held := by
  unfold held
  simp only [Heap.next_alloc, Finset.sum_range_succ, Heap.cell_alloc_self]
  have hnew : (ChannelState.carried .new : Multiset HandleEntry) = 0 := rfl
  rw [hnew, add_zero]
  congr 1
  refine Finset.sum_congr rfl fun c hc => ?_
  rw [Heap.cell_alloc_of_ne _ _ (Nat.ne_of_lt (Finset.mem_range.mp hc))]

theorem mem_held_of_table (h : e ∈ (s.tables t).entries) : e ∈ s.held :=
  mem_add.mpr (.inl (mem_sum.mpr ⟨t, mem_univ t, mem_coe.mpr h⟩))

theorem mem_held_of_occupied (h : (s.tables t).OccupiedAt i generation e) : e ∈ s.held :=
  mem_held_of_table (mem_entries.mpr ⟨i, generation, h⟩)

theorem mem_held_of_queue {m : KernelMessage}
    (hcell : c < s.channels.next) (hm : m ∈ s.queue c side) (he : e ∈ m.handles) : e ∈ s.held := by
  refine mem_add.mpr (.inr
    (Multiset.mem_sum.mpr ⟨c, Finset.mem_range.mpr hcell, Multiset.mem_coe.mpr ?_⟩))
  refine mem_flatMap.mpr ⟨m, ?_, he⟩
  cases side with
  | left => exact mem_append_left _ hm
  | right => exact mem_append_right _ hm

end System

variable {s : System n} {hand doomed : List HandleEntry} {dirty : List WaitFacet} {generation : Nat}
  {entry : HandleEntry}

theorem total_take {entry' : HandleEntry} (h : (s.tables t).OccupiedAt i generation entry) :
    ∃ rest, Frame.total ⟨s, hand, doomed, dirty⟩ = entry ::ₘ rest ∧
      Frame.total ⟨s.withTable t ((s.tables t).vacate i generation), hand ++ [entry'],
        doomed, dirty⟩ = entry' ::ₘ rest := by
  refine ⟨(s.withTable t ((s.tables t).vacate i generation)).held + hand + doomed, ?_, ?_⟩
  · simp only [Frame.total, s.held_vacate h, cons_add]
  · simp only [Frame.total, ← Multiset.coe_add, Multiset.coe_singleton]
    rw [← singleton_add]
    abel

theorem total_clone : Frame.total ⟨s, hand ++ [entry], doomed, dirty⟩ =
      entry ::ₘ Frame.total ⟨s, hand, doomed, dirty⟩ := by
  simp only [Frame.total, ← Multiset.coe_add, Multiset.coe_singleton]
  rw [← Multiset.singleton_add]
  abel

theorem total_install (h : (s.tables t).VacantAt i generation) :
    Frame.total ⟨s.withTable t ((s.tables t).fill i generation entry), hand, doomed, dirty⟩ =
      Frame.total ⟨s, entry :: hand, doomed, []⟩ := by
  simp only [Frame.total, s.held_fill h, ← cons_coe, cons_add, add_cons]

theorem total_send {message : KernelMessage} (hcell : c < s.channels.next) :
    Frame.total ⟨s.modifyChannel c (·.withQueue side (s.queue c side ++ [message])), [], doomed,
        dirty⟩ = Frame.total ⟨s, message.handles, doomed, []⟩ := by
  have hsum := s.held_queue (s.modifyChannel c (·.withQueue side (s.queue c side ++ [message])))
    c side rfl rfl hcell (fun d side' hne => by
      rw [s.queue_withQueue c d side side' (s.queue c side ++ [message]), if_neg hne])
  rw [s.queue_withQueue, if_pos ⟨rfl, rfl⟩, flatMap_append, ← coe_add,
    ← add_assoc, add_right_comm] at hsum
  have hheld := add_right_cancel hsum
  simp only [Frame.total, hheld, flatMap_cons, flatMap_nil, append_nil, coe_nil, add_zero]

theorem total_receive {message : KernelMessage}
    {q : List KernelMessage} (hcell : c < s.channels.next) (hq : s.queue c side = message :: q) :
    Frame.total ⟨s.modifyChannel c (·.withQueue side q), message.handles, doomed, dirty⟩ =
      Frame.total ⟨s, [], doomed, []⟩ := by
  have hsum := s.held_queue (s.modifyChannel c (·.withQueue side q)) c side rfl rfl hcell
    (fun d side' hne => by rw [s.queue_withQueue c d side side' q, if_neg hne])
  rw [s.queue_withQueue, if_pos ⟨rfl, rfl⟩, hq, flatMap_cons, ← coe_add, ← add_assoc] at hsum
  have hheld := add_right_cancel hsum
  simp only [Frame.total, hheld, coe_nil, add_zero]

theorem total_close (h : (s.tables t).OccupiedAt i generation entry) :
    Frame.total ⟨s.withTable t ((s.tables t).vacate i generation), hand, entry :: doomed,
        dirty⟩ = Frame.total ⟨s, hand, doomed, []⟩ := by
  simp only [Frame.total, s.held_vacate h, ← cons_coe, cons_add, add_cons]

theorem total_dropChannel {rest : List HandleEntry} (hcell : c < s.channels.next) :
    Frame.total ⟨s.modifyChannel c (·.close side), hand,
        (s.queue c side).flatMap (·.handles) ++ rest, dirty⟩ = Frame.total ⟨s, hand, rest, []⟩ := by
  simp only [Frame.total, ← coe_add, ← s.held_close side hcell]
  abel

end Ginkgo.Ipc
