import Ginkgo.Ipc.Types
import Ginkgo.Lib.Fallible
import Ginkgo.Lib.IndexedHeap
import Ginkgo.Lib.Words
import Ginkgo.Lib.Transition
import Mathlib.Data.Prod.Lex

/-!
# The wait runtime

A wait keeps its scheduler key in a slot of a fixed table.  The token that is handed out
names the slot and the generation of its use.  Beside the slots stand the table that
observers see under a lock, with the queue of the tokens they notified, and a heap of
deadlines with a back-pointer in every slot that is in it.

Capacities are those of `usize`, and `Vec` and `VecDeque` are lists.  An index is in range
whenever the source reads it without a check; where it would panic the model does nothing.
-/

namespace Ginkgo.Kernel

open Ginkgo.Ipc Ginkgo.Lib

inductive WaitKind
  | waitMany
  | sleep
  | join
  | request
  | processTermination
  deriving DecidableEq, Repr

inductive WakeCause
  | object
  | dependency
  | deadline
  deriving DecidableEq, Repr

structure WaitWake (K : Type) where
  token : WaitToken
  key : K
  kind : WaitKind
  cause : WakeCause
  deadlineNs : Option Nat
  deriving DecidableEq

inductive WaitRuntimeError
  | invalidCapacity
  | capacityTooLarge
  | capacityReached
  | outOfMemory
  deriving DecidableEq, Repr

structure WaitRuntimeDiagnostics where
  active : Nat := 0
  peakActive : Nat := 0
  objectNotifications : Nat := 0
  dependencyNotifications : Nat := 0
  coalescedNotifications : Nat := 0
  staleNotifications : Nat := 0
  deadlineWakes : Nat := 0
  cancellations : Nat := 0
  queuePeak : Nat := 0
  deriving DecidableEq, Repr

abbrev tokenIndexBits : Nat := tagBits

abbrev tokenIndexMask : Nat := tagMask

structure DecodedToken where
  index : Nat
  generation : Nat
  deriving DecidableEq

def decodeToken (token : WaitToken) (capacity : Nat) : Option DecodedToken :=
  let encodedIndex := token.raw &&& tokenIndexMask
  let generation := token.raw >>> tokenIndexBits
  if encodedIndex = 0 ∨ generation = 0 then none
  else
    let index := encodedIndex - 1
    if index ≥ capacity then none else some ⟨index, generation⟩

def encodeToken (index generation : Nat) : WaitToken :=
  ⟨packTag index generation, packTag_ne_zero index generation⟩

/-- The next generation of a slot, or the last one and the slot's retirement. -/
def advancedGeneration (generation : Nat) : Nat × Bool :=
  if generation + 1 ≤ u32Max then (generation + 1, false) else (generation, true)

/-! ## The observer's side -/

structure ObserverSlot where
  generation : Nat
  retired : Bool
  active : Bool
  queued : Bool
  deriving DecidableEq

def ObserverSlot.vacant : ObserverSlot := ⟨1, false, false, false⟩

structure ReadyRecord where
  token : WaitToken
  cause : WakeCause
  deriving DecidableEq

structure ObserverState where
  slots : List ObserverSlot
  ready : List ReadyRecord
  diagnostics : WaitRuntimeDiagnostics
  deriving DecidableEq

namespace ObserverState

def noteStale (o : ObserverState) : ObserverState :=
  { o with diagnostics := { o.diagnostics with
      staleNotifications := saturatingAdd o.diagnostics.staleNotifications 1 } }

def noteCause (cause : WakeCause) (o : ObserverState) : ObserverState :=
  match cause with
  | .object =>
    { o with diagnostics := { o.diagnostics with
        objectNotifications := saturatingAdd o.diagnostics.objectNotifications 1 } }
  | .dependency =>
    { o with diagnostics := { o.diagnostics with
        dependencyNotifications := saturatingAdd o.diagnostics.dependencyNotifications 1 } }
  -- No caller passes a deadline.
  | .deadline => o

def noteCoalesced (o : ObserverState) : ObserverState :=
  { o with diagnostics := { o.diagnostics with
      coalescedNotifications := saturatingAdd o.diagnostics.coalescedNotifications 1 } }

def setQueued (index : Nat) (queued : Bool) (o : ObserverState) : ObserverState :=
  { o with slots := o.slots.modify index fun slot => { slot with queued := queued } }

def pushReady (record : ReadyRecord) (o : ObserverState) : ObserverState :=
  { o with
    ready := o.ready ++ [record]
    diagnostics := { o.diagnostics with
      queuePeak := max o.diagnostics.queuePeak (o.ready ++ [record]).length } }

def notify (token : WaitToken) (cause : WakeCause) (o : ObserverState) : Bool × ObserverState :=
  match decodeToken token o.slots.length with
  | none => (false, o.noteStale)
  | some decoded =>
    match o.slots[decoded.index]? with
    | none => (false, o)
    | some slot =>
      if !slot.active || slot.retired || slot.generation != decoded.generation then
        (false, o.noteStale)
      else
        let o := o.noteCause cause
        if slot.queued then (true, o.noteCoalesced)
        else (true, (o.setQueued decoded.index true).pushReady ⟨token, cause⟩)

def removeReady (token : WaitToken) (index : Nat) (o : ObserverState) : ObserverState :=
  match o.slots[index]? with
  | none => o
  | some slot =>
    if slot.queued then
      { o with ready := o.ready.eraseP fun record => record.token == token }.setQueued index false
    else o

def activate (index : Nat) (o : ObserverState) : ObserverState :=
  { o with
    slots := o.slots.modify index fun slot => { slot with active := true }
    diagnostics := { o.diagnostics with
      active := o.diagnostics.active + 1
      peakActive := max o.diagnostics.peakActive (o.diagnostics.active + 1) } }

def deactivate (index generation : Nat) (retired : Bool) (o : ObserverState) : ObserverState :=
  { o with
    slots := o.slots.modify index fun _ => ⟨generation, retired, false, false⟩
    diagnostics := { o.diagnostics with active := o.diagnostics.active - 1 } }

def noteCancellation (o : ObserverState) : ObserverState :=
  { o with diagnostics := { o.diagnostics with
      cancellations := saturatingAdd o.diagnostics.cancellations 1 } }

def noteDeadlineWake (o : ObserverState) : ObserverState :=
  { o with diagnostics := { o.diagnostics with
      deadlineWakes := saturatingAdd o.diagnostics.deadlineWakes 1 } }

end ObserverState

/-! ## The dispatcher's side -/

structure WaitSlot (K : Type) where
  generation : Nat
  retired : Bool
  key : Option K
  kind : WaitKind
  deadlineNs : Option Nat
  heapIndex : Option Nat
  deriving DecidableEq

namespace WaitSlot

variable {K : Type}

def vacant : WaitSlot K := ⟨1, false, none, .waitMany, none, none⟩

def isActive (slot : WaitSlot K) : Bool := slot.key.isSome

end WaitSlot

structure DeadlineEntry where
  deadlineNs : Nat
  token : WaitToken
  deriving DecidableEq

def DeadlineEntry.orderingKey (entry : DeadlineEntry) : Nat ×ₗ Nat :=
  toLex (entry.deadlineNs, entry.token.raw)

structure WaitRuntime (K : Type) where
  capacity : Nat
  slots : List (WaitSlot K)
  deadlines : List DeadlineEntry
  observer : ObserverState
  deriving DecidableEq

namespace WaitRuntime

variable {K : Type}

/-- Every table reserves its room at once, and the shared observer is one more allocation. -/
def tryNew (capacity : Nat) : EStateM WaitRuntimeError Budget (WaitRuntime K) := do
  if capacity = 0 then throw .invalidCapacity
  if capacity > u32Max then throw .capacityTooLarge
  allocCapacity .outOfMemory capacity
  allocCapacity .outOfMemory capacity
  allocCapacity .outOfMemory capacity
  allocCapacity .outOfMemory capacity
  alloc .outOfMemory
  return ⟨capacity, List.replicate capacity .vacant, [], ⟨List.replicate capacity .vacant, [], {}⟩⟩

def setHeapIndex (index : Nat) (heapIndex : Option Nat) (s : WaitRuntime K) : WaitRuntime K :=
  { s with slots := s.slots.modify index fun slot => { slot with heapIndex := heapIndex } }

/-- The heap of deadlines.  An entry that moves writes the slot its token names; one that is
removed clears the slot only when the token is its current one. -/
def deadlineHeap : IndexedHeap.Store (WaitRuntime K) DeadlineEntry where
  entries s := s.deadlines
  withEntries entries s := { s with deadlines := entries }
  setPosition entry position s :=
    match decodeToken entry.token s.capacity, position with
    | none, _ => s
    | some decoded, some heapIndex => s.setHeapIndex decoded.index (some heapIndex)
    | some decoded, none =>
      match s.slots[decoded.index]? with
      | none => s
      | some slot =>
        if slot.generation = decoded.generation then s.setHeapIndex decoded.index none else s

def pushDeadline (entry : DeadlineEntry) (s : WaitRuntime K) : WaitRuntime K :=
  IndexedHeap.push deadlineHeap DeadlineEntry.orderingKey entry s

def removeDeadlineAt (index : Nat) (s : WaitRuntime K) : WaitRuntime K :=
  IndexedHeap.removeAt deadlineHeap DeadlineEntry.orderingKey index s

def removeSlotDeadline (slotIndex : Nat) (s : WaitRuntime K) : WaitRuntime K :=
  match (s.slots[slotIndex]?).bind WaitSlot.heapIndex with
  | some heapIndex => s.removeDeadlineAt heapIndex
  | none => s

def releaseSlot (index generation : Nat) (retired : Bool) (s : WaitRuntime K) : WaitRuntime K :=
  { s with slots := s.slots.modify index fun slot =>
      { slot with
        key := none
        deadlineNs := none
        heapIndex := none
        generation := generation
        retired := retired } }

def fillSlot (index : Nat) (key : K) (kind : WaitKind) (deadlineNs : Option Nat)
    (s : WaitRuntime K) : WaitRuntime K :=
  { s with slots := s.slots.modify index fun slot =>
      { slot with
        key := some key
        kind := kind
        deadlineNs := deadlineNs
        heapIndex := none } }

/-- The slot's side of a registration, before the observer's table is told. -/
def occupySlot (index : Nat) (key : K) (kind : WaitKind) (deadlineNs : Option Nat)
    (token : WaitToken) (s : WaitRuntime K) : WaitRuntime K :=
  let s := s.fillSlot index key kind deadlineNs
  match deadlineNs with
  | some deadlineNs => s.pushDeadline ⟨deadlineNs, token⟩
  | none => s

def register (key : K) (kind : WaitKind) (deadlineNs : Option Nat) (s : WaitRuntime K) :
    Except WaitRuntimeError WaitToken × WaitRuntime K :=
  match s.slots.findIdx? fun slot => !slot.isActive && !slot.retired with
  | none => (.error .capacityReached, s)
  | some index =>
    match s.slots[index]? with
    | none => (.error .capacityReached, s)
    | some slot =>
      let token := encodeToken index slot.generation
      let s := s.occupySlot index key kind deadlineNs token
      (.ok token, { s with observer := s.observer.activate index })

/-- `notify` of the shared observer, which is told only of signals. -/
def notify (token : WaitToken) (cause : WakeCause) (s : WaitRuntime K) : Bool × WaitRuntime K :=
  let (accepted, observer) := s.observer.notify token cause
  (accepted, { s with observer := observer })

def notifyDependency (token : WaitToken) (s : WaitRuntime K) : Bool × WaitRuntime K :=
  s.notify token .dependency

def tokenForKey [DecidableEq K] (key : K) (s : WaitRuntime K) : Option WaitToken :=
  s.slots.zipIdx.findSome? fun (slot, index) =>
    if slot.key = some key then some (encodeToken index slot.generation) else none

def cancel (token : WaitToken) (s : WaitRuntime K) : Bool × WaitRuntime K :=
  match decodeToken token s.capacity with
  | none => (false, s)
  | some decoded =>
    match s.slots[decoded.index]? with
    | none => (false, s)
    | some slot =>
      if !slot.isActive || slot.generation != decoded.generation then (false, s)
      else
        let (nextGeneration, retired) := advancedGeneration decoded.generation
        let observer := ((s.observer.removeReady token decoded.index).deactivate
          decoded.index nextGeneration retired).noteCancellation
        let s := { s with observer := observer }
        let s := s.removeSlotDeadline decoded.index
        (true, s.releaseSlot decoded.index nextGeneration retired)

def cancelKey [DecidableEq K] (key : K) (s : WaitRuntime K) : Bool × WaitRuntime K :=
  match s.tokenForKey key with
  | some token => s.cancel token
  | none => (false, s)

/-- The inner loop: take records off the queue until one of them wakes its wait. -/
def popReady : List ReadyRecord → WaitRuntime K → Option (WaitWake K) × WaitRuntime K
  | [], s => (none, { s with observer := { s.observer with ready := [] } })
  | record :: rest, s =>
    let s := { s with observer := { s.observer with ready := rest } }
    match decodeToken record.token s.capacity with
    | none => popReady rest s
    | some decoded =>
      match s.observer.slots[decoded.index]?, s.slots[decoded.index]? with
      | some observerSlot, some slot =>
        if !observerSlot.active || !observerSlot.queued ||
            observerSlot.generation != decoded.generation then popReady rest s
        else
          match slot.key with
          | none =>
            popReady rest { s with
              observer := s.observer.setQueued decoded.index false }
          | some key =>
            if slot.generation ≠ decoded.generation then
              popReady rest { s with
                observer := s.observer.setQueued decoded.index false }
            else
              let (nextGeneration, retired) := advancedGeneration decoded.generation
              let s := { s with observer :=
                s.observer.deactivate decoded.index nextGeneration retired }
              let s := s.removeSlotDeadline decoded.index
              (some ⟨record.token, key, slot.kind, record.cause, slot.deadlineNs⟩,
                s.releaseSlot decoded.index nextGeneration retired)
      | _, _ => popReady rest s

/-- The outer loop.  A round that does not return takes an entry off the heap, so that as many
rounds as there are entries are enough. -/
def nextWakeFrom : Nat → Nat → WaitRuntime K → Option (WaitWake K) × WaitRuntime K
  | fuel, nowNs, s =>
    match popReady s.observer.ready s with
    | (some wake, s) => (some wake, s)
    | (none, s) =>
      match s.deadlines.head?, fuel with
      | none, _ => (none, s)
      | some _, 0 => (none, s)
      | some entry, fuel + 1 =>
        if entry.deadlineNs > nowNs then (none, s)
        else
          match decodeToken entry.token s.capacity with
          | none => nextWakeFrom fuel nowNs (s.removeDeadlineAt 0)
          | some decoded =>
            match s.slots[decoded.index]? with
            | none => nextWakeFrom fuel nowNs (s.removeDeadlineAt 0)
            | some slot =>
              match slot.key with
              | none => nextWakeFrom fuel nowNs (s.removeDeadlineAt 0)
              | some key =>
                if slot.generation ≠ decoded.generation then
                  nextWakeFrom fuel nowNs (s.removeDeadlineAt 0)
                else
                  let (nextGeneration, retired) :=
                    advancedGeneration decoded.generation
                  let s := { s with observer :=
                    (s.observer.deactivate decoded.index nextGeneration retired).noteDeadlineWake }
                  let s := s.removeDeadlineAt 0
                  (some ⟨entry.token, key, slot.kind, .deadline, slot.deadlineNs⟩,
                    s.releaseSlot decoded.index nextGeneration retired)

def nextWake (nowNs : Nat) (s : WaitRuntime K) : Option (WaitWake K) × WaitRuntime K :=
  nextWakeFrom s.deadlines.length nowNs s

def nextDeadlineNs (s : WaitRuntime K) : Option Nat := s.deadlines.head?.map (·.deadlineNs)

end WaitRuntime

end Ginkgo.Kernel
