import Ginkgo.Lib.Fallible
import Ginkgo.Lib.Probing
import Mathlib.Data.List.MinMax

/-!
# The write-back disk

A cache of 4 KiB blocks in front of a disk.  Writes are accepted into the cache and numbered;
they reach the disk in that order, one backing operation at a time.  A flush request is a
ticket for the number of the last write so far.

The disk below is any `Disk`: what its calls return is up to it.  The contents of a block are
a value of an arbitrary type.
-/

namespace Ginkgo.Kernel.Writeback

open Ginkgo.Lib

abbrev Errno := Nat

def EIO : Errno := 5
def EAGAIN : Errno := 11
def EINVAL : Errno := 22
def ENOSPC : Errno := 28
def EROFS : Errno := 30

def writebackBlockSize : Nat := 4096
def readAheadBlocks : Nat := 4
def defaultWritebackBatchBlocks : Nat := 2
def maxWritebackBatchBlocks : Nat := 4

/-- The trait of the disk below: `readAt block count` returns how many bytes it read and the
blocks of the buffer, `writeAt` how many bytes it wrote. -/
class Disk (δ : Type) (β : outParam Type) where
  readAt : Nat → Nat → δ → Except Errno (Nat × List β) × δ
  writeAt : Nat → List β → δ → Except Errno Nat × δ
  flush : δ → Except Errno Unit × δ
  size : δ → Except Errno UInt64 × δ

inductive WriteBackConfigError
  | zeroCapacity
  | invalidWritebackBatch
  | capacityOverflow
  | allocationFailed
  deriving DecidableEq, Repr

inductive WriteBackFailureOperation
  | write (block firstSequence lastSequence : Nat)
  | flush (requestedSequence : Nat)
  deriving DecidableEq, Repr

structure WriteBackFailure where
  errno : Errno
  operation : WriteBackFailureOperation
  deriving DecidableEq, Repr

inductive WriteBackProgress
  | idle
  | wroteBlock (block firstSequence lastSequence : Nat)
  | flushed (durableSequence : Nat)
  deriving DecidableEq, Repr

structure DrainReport where
  ticket : Nat
  durableSequence : Nat
  dirtyRemaining : Nat
  steps : Nat
  complete : Bool
  deriving DecidableEq, Repr

inductive EntryState
  | vacant
  | clean
  | dirty
  deriving DecidableEq, Repr

structure CacheEntry (β : Type) where
  block : Nat
  data : β
  state : EntryState
  firstSequence : Nat
  lastSequence : Nat
  lastUsed : Nat

namespace CacheEntry

variable {β : Type}

def vacant [Inhabited β] : CacheEntry β := ⟨0, default, .vacant, 0, 0, 0⟩

def isVacant (entry : CacheEntry β) : Bool := entry.state = .vacant

def isClean (entry : CacheEntry β) : Bool := entry.state = .clean

def isDirty (entry : CacheEntry β) : Bool := entry.state = .dirty

/-- A write to a block that has the entry. -/
def overwrite (data : β) (sequence access : Nat) (entry : CacheEntry β) : CacheEntry β :=
  let entry := if entry.isDirty then entry else
    { entry with state := .dirty, firstSequence := sequence }
  { entry with data := data, lastSequence := sequence, lastUsed := access }

/-- A write to a block that was given the entry. -/
def refill (data : β) (sequence access : Nat) (entry : CacheEntry β) : CacheEntry β :=
  { entry with
    data := data
    state := .dirty
    firstSequence := sequence
    lastSequence := sequence
    lastUsed := access }

end CacheEntry

/-- What the cache did, in order.  The code keeps no such record. -/
inductive Event (δ β : Type)
  | accepted (sequence block : Nat) (data : β)
  | flush (ticket : Nat) (inner : δ) (result : Except Errno Unit)

/-- `events` is for the proofs only. -/
structure WriteBackDisk (δ β : Type) where
  inner : δ
  entries : List (CacheEntry β)
  lookup : List (ProbeSlot Nat Nat)
  lookupMask : Nat
  flushTickets : List Nat
  flushTicketHead : Nat
  flushTicketLen : Nat
  dirtyCount : Nat
  writebackBatchBlocks : Nat
  accessClock : Nat
  writeSequence : Nat
  requestedSequence : Nat
  durableSequence : Nat
  asyncWritebackEnabled : Bool
  quiesced : Bool
  failure : Option WriteBackFailure
  events : List (Event δ β)

/-- `usize::checked_next_power_of_two`. -/
def checkedNextPowerOfTwo (n : Nat) : Option Nat :=
  let power := if n ≤ 1 then 1 else 2 ^ (Nat.log2 (n - 1) + 1)
  if power ≤ wordMax then some power else none

def orOverflow : Option Nat → EStateM WriteBackConfigError Budget Nat
  | some count => pure count
  | none => throw .capacityOverflow

namespace WriteBackDisk

variable {δ β : Type}

def tryNewWithWritebackBatch [Inhabited β] (inner : δ) (entryCount writebackBatchBlocks : Nat) :
    EStateM WriteBackConfigError Budget (WriteBackDisk δ β) := do
  if entryCount = 0 then throw .zeroCapacity
  if writebackBatchBlocks = 0 ∨ writebackBatchBlocks > maxWritebackBatchBlocks then
    throw .invalidWritebackBatch
  let lookupCount ← orOverflow ((checkedMul entryCount 2).bind checkedNextPowerOfTwo)
  let flushTicketCount ← orOverflow (checkedAdd entryCount 1)
  allocCapacity .allocationFailed entryCount
  allocCapacity .allocationFailed lookupCount
  allocCapacity .allocationFailed (readAheadBlocks * writebackBlockSize)
  allocCapacity .allocationFailed flushTicketCount
  return {
    inner := inner
    entries := List.replicate entryCount .vacant
    lookup := List.replicate lookupCount .empty
    lookupMask := lookupCount - 1
    flushTickets := List.replicate flushTicketCount 0
    flushTicketHead := 0
    flushTicketLen := 0
    dirtyCount := 0
    writebackBatchBlocks := writebackBatchBlocks
    accessClock := 0
    writeSequence := 0
    requestedSequence := 0
    durableSequence := 0
    asyncWritebackEnabled := false
    quiesced := false
    failure := none
    events := [] }

def tryNew [Inhabited β] (inner : δ) (entryCount : Nat) :
    EStateM WriteBackConfigError Budget (WriteBackDisk δ β) :=
  tryNewWithWritebackBatch inner entryCount defaultWritebackBatchBlocks

def hashBlock (value : Nat) : Nat :=
  let value := value ^^^ value >>> 30
  let value := value * 0xbf58476d1ce4e5b9 % 2 ^ 64
  let value := value ^^^ value >>> 27
  let value := value * 0x94d049bb133111eb % 2 ^ 64
  value ^^^ value >>> 31

/-- The slots that are tried from this one on. -/
def probes (mask : Nat) : Nat → Nat → List Nat
  | 0, _ => []
  | count + 1, slot => slot :: probes mask count ((slot + 1) &&& mask)

def path (s : WriteBackDisk δ β) (block : Nat) : List Nat :=
  probes s.lookupMask s.lookup.length (hashBlock block &&& s.lookupMask)

def lookupEntry (block : Nat) (s : WriteBackDisk δ β) : Option Nat :=
  Probing.find s.lookup block (s.path block)

def insertLookup (block entry : Nat) (s : WriteBackDisk δ β) : Option (WriteBackDisk δ β) :=
  (Probing.insert s.lookup block entry (s.path block)).map fun lookup => { s with lookup := lookup }

def removeLookup (block : Nat) (s : WriteBackDisk δ β) : WriteBackDisk δ β :=
  { s with lookup := Probing.remove s.lookup block (s.path block) }

/-! ## Entries -/

def nextAccess (s : WriteBackDisk δ β) : Nat × WriteBackDisk δ β :=
  let clock := saturatingAdd s.accessClock 1
  (clock, { s with accessClock := clock })

def modifyEntry (index : Nat) (f : CacheEntry β → CacheEntry β) (s : WriteBackDisk δ β) :
    WriteBackDisk δ β :=
  { s with entries := s.entries.modify index f }

/-- The entry that passes the test with the least key, the first of several. -/
def minEntry (test : CacheEntry β → Bool) (key : CacheEntry β → Nat) (s : WriteBackDisk δ β) :
    Option Nat :=
  (indices test s.entries).argmin fun index => ((s.entries[index]?).map key).getD 0

def lowestSequenceDirty (s : WriteBackDisk δ β) : Option Nat :=
  s.minEntry CacheEntry.isDirty CacheEntry.firstSequence

/-- `protect` is a range of blocks that are not evicted. -/
def reusableEntry (protect : Option (Nat × Nat)) (s : WriteBackDisk δ β) : Option Nat :=
  match s.entries.findIdx? CacheEntry.isVacant with
  | some index => some index
  | none => s.minEntry (fun entry => entry.isClean &&
      protect.all fun (first, last) => entry.block < first || last ≤ entry.block)
      CacheEntry.lastUsed

def reusableCount (protectedStart protectedEnd : Nat) (s : WriteBackDisk δ β) : Nat :=
  s.entries.countP fun entry => entry.isVacant ||
    entry.isClean && !(protectedStart ≤ entry.block && entry.block < protectedEnd)

/-- Give the entry to another block.  It stays nameless if there is no room in the table. -/
def prepareEntry (index block : Nat) (s : WriteBackDisk δ β) : Bool × WriteBackDisk δ β :=
  let s := match s.entries[index]? with
    | some entry => if entry.isClean then s.removeLookup entry.block else s
    | none => s
  let s := s.modifyEntry index ({ · with block := block })
  match s.insertLookup block index with
  | some s => (true, s)
  | none => (false, s)

/-- Keep a block that was read, if there is an entry for it. -/
def admitClean (block : Nat) (data : β) (s : WriteBackDisk δ β) : Bool × WriteBackDisk δ β :=
  match s.lookupEntry block with
  | some _ => (true, s)
  | none =>
    match s.reusableEntry none with
    | none => (false, s)
    | some index =>
      let (access, s) := s.nextAccess
      match s.prepareEntry index block with
      | (false, s) => (false, s)
      | (true, s) => (true, s.modifyEntry index fun entry =>
        { entry with
          data := data
          state := .clean
          firstSequence := 0
          lastSequence := 0
          lastUsed := access })

end WriteBackDisk

abbrev DiskM (δ β : Type) := EStateM Errno (WriteBackDisk δ β)

namespace WriteBackDisk

variable {δ β : Type}

/-- Call the disk below; the caller looks at the result. -/
def onInner {α : Type} (call : δ → Except Errno α × δ) : DiskM δ β (Except Errno α) := fun s =>
  let (result, inner) := call s.inner
  .ok result { s with inner := inner }

def record (event : Event δ β) (s : WriteBackDisk δ β) : WriteBackDisk δ β :=
  { s with events := s.events ++ [event] }

/-! ## Writing back -/

def recordFailure (errno : Errno) (operation : WriteBackFailureOperation) (s : WriteBackDisk δ β) :
    WriteBackDisk δ β :=
  if s.failure.isNone then { s with failure := some ⟨errno, operation⟩ } else s

def currentFlushTicket (s : WriteBackDisk δ β) : Option Nat :=
  if s.flushTicketLen ≠ 0 then s.flushTickets[s.flushTicketHead]? else none

def requestDurability : DiskM δ β Nat := do
  let s ← get
  match s.failure with
  | some failure => throw failure.errno
  | none =>
    if s.writeSequence = s.requestedSequence then return s.requestedSequence
    if s.flushTicketLen = s.flushTickets.length then throw EAGAIN
    let tail := (s.flushTicketHead + s.flushTicketLen) % s.flushTickets.length
    set { s with
      flushTickets := s.flushTickets.set tail s.writeSequence
      flushTicketLen := s.flushTicketLen + 1
      requestedSequence := s.writeSequence }
    return s.writeSequence

/-- The entries written in one operation, after the first: each is the next in sequence and
holds the next block. -/
def extendRun (ticket : Option Nat) (s : WriteBackDisk δ β) :
    Nat → CacheEntry β → List (Nat × CacheEntry β)
  | 0, _ => []
  | room + 1, previous =>
    match s.minEntry (fun entry => entry.isDirty &&
        decide (previous.firstSequence < entry.firstSequence)) CacheEntry.firstSequence with
    | none => []
    | some index =>
      match s.entries[index]? with
      | none => []
      | some entry =>
        if entry.block ≠ saturatingAdd previous.block 1 ∨
            ticket.any (fun ticket => ticket < entry.firstSequence) then []
        else (index, entry) :: extendRun ticket s room entry

/-- The entries of a run are on the disk. -/
def cleanEntries (run : List Nat) (entries : List (CacheEntry β)) : List (CacheEntry β) :=
  run.foldl (fun entries index => entries.modify index ({ · with state := .clean })) entries

variable [Disk δ β]

def flushBacking (ticket : Nat) : DiskM δ β WriteBackProgress := do
  let s ← get
  let result ← onInner Disk.flush
  modify (record (.flush ticket s.inner result))
  match result with
  | .ok () =>
    modify fun s => { s with
      durableSequence := ticket
      flushTicketHead := (s.flushTicketHead + 1) % s.flushTickets.length
      flushTicketLen := s.flushTicketLen - 1 }
    return .flushed ticket
  | .error errno =>
    modify (recordFailure errno (.flush ticket))
    throw errno

def writeBackRun (firstEntry : Nat) (ticket : Option Nat) : DiskM δ β WriteBackProgress := do
  let s ← get
  match s.entries[firstEntry]? with
  | none => return .idle
  | some first =>
    let run := (firstEntry, first) :: s.extendRun ticket (s.writebackBatchBlocks - 1) first
    let lastSequence := ((run.map (·.2.lastSequence)).max?).getD first.firstSequence
    let byteLen := run.length * writebackBlockSize
    let operation := .write first.block first.firstSequence lastSequence
    match ← onInner (Disk.writeAt first.block (run.map (·.2.data))) with
    | .ok written =>
      if written = byteLen then
        modify fun s => { s with
          entries := cleanEntries (run.map (·.1)) s.entries
          dirtyCount := s.dirtyCount - run.length }
        return .wroteBlock first.block first.firstSequence lastSequence
      else
        modify (recordFailure EIO operation)
        throw EIO
    | .error errno =>
      modify (recordFailure errno operation)
      throw errno

/-- At most one backing operation. -/
def writebackStep : DiskM δ β WriteBackProgress := do
  let s ← get
  match s.failure with
  | some failure => throw failure.errno
  | none =>
    let dirty := s.lowestSequenceDirty
    let ready (ticket : Nat) : Bool :=
      match dirty.bind (s.entries[·]?) with
      | some entry => ticket < entry.firstSequence
      | none => true
    match s.currentFlushTicket.filter ready with
    | some ticket => flushBacking ticket
    | none =>
      match dirty with
      | none => return .idle
      | some index => writeBackRun index s.currentFlushTicket

/-- Forget the failure and try one backing operation again. -/
def retryWritebackStep : DiskM δ β WriteBackProgress := do
  modify ({ · with failure := none })
  writebackStep

def drainSteps (ticket : Nat) : Nat → Nat → DiskM δ β Nat
  | 0, steps => return steps
  | room + 1, steps => do
    let s ← get
    if s.durableSequence < ticket then
      match ← writebackStep with
      | .idle => return steps
      | .wroteBlock _ _ _ | .flushed _ => drainSteps ticket room (steps + 1)
    else return steps

def drainTicket (ticket maxSteps : Nat) : DiskM δ β DrainReport := do
  let steps ← drainSteps ticket maxSteps 0
  let s ← get
  return ⟨ticket, s.durableSequence, s.dirtyCount, steps, decide (ticket ≤ s.durableSequence)⟩

def quiesce : DiskM δ β Nat := do
  modify ({ · with quiesced := true })
  requestDurability

def resumeAfterQuiesce : DiskM δ β Unit := do
  let s ← get
  match s.failure with
  | some failure => throw failure.errno
  | none => set { s with quiesced := false }

def shutdownDrain (maxSteps : Nat) : DiskM δ β DrainReport := do
  let ticket ← quiesce
  drainTicket ticket maxSteps

/-- Whether this was the first call. -/
def enableAsyncWriteback (s : WriteBackDisk δ β) : Bool × WriteBackDisk δ β :=
  if s.asyncWritebackEnabled then (false, s) else (true, { s with asyncWritebackEnabled := true })

/-! ## The disk interface -/

def isReadOnly (s : WriteBackDisk δ β) : Bool := s.quiesced || s.failure.isSome

def validateTransfer (block byteLen : Nat) : DiskM δ β Nat :=
  if byteLen % writebackBlockSize ≠ 0 then throw EINVAL
  else
    match checkedAdd block (byteLen / writebackBlockSize) with
    | none => throw EINVAL
    | some _ => pure (byteLen / writebackBlockSize)

/-- What the range needs: none if a pending ticket forbids the write. -/
def newEntries (block blockCount : Nat) (s : WriteBackDisk δ β) : Option Nat :=
  (List.range blockCount).foldlM (fun count offset =>
    match s.lookupEntry (block + offset) with
    | none => some (count + 1)
    | some index =>
      match s.entries[index]? with
      | none => some count
      | some entry =>
        if s.flushTicketLen ≠ 0 ∧ entry.isDirty ∧
            entry.firstSequence ≤ s.requestedSequence then none
        else some count) 0

/-- Write dirty blocks back until enough entries can be reused. -/
def relievePressure (block blockEnd needed : Nat) : Nat → Nat → DiskM δ β Nat
  | 0, reusable => return reusable
  | steps + 1, reusable => do
    if needed ≤ reusable then return reusable
    let _ ← writebackStep
    let s ← get
    let freed := s.reusableCount block blockEnd
    if freed ≤ reusable then throw EAGAIN
    relievePressure block blockEnd needed steps freed

def preflightWrite (block blockCount : Nat) : DiskM δ β Unit := do
  let s ← get
  if s.isReadOnly then throw EROFS
  if s.entries.length < blockCount then throw ENOSPC
  match checkedAdd s.writeSequence blockCount with
  | none => throw EIO
  | some _ =>
    match s.newEntries block blockCount with
    | none => throw EAGAIN
    | some needed =>
      let reusable := s.reusableCount block (block + blockCount)
      let reusable ← relievePressure block (block + blockCount) needed (needed - reusable) reusable
      if reusable < needed then throw EAGAIN

def overwrite (index : Nat) (data : β) (sequence access : Nat) (s : WriteBackDisk δ β) :
    WriteBackDisk δ β :=
  { s.modifyEntry index (.overwrite data sequence access) with
    dirtyCount :=
      if (s.entries[index]?).any CacheEntry.isDirty then s.dirtyCount else s.dirtyCount + 1 }

def refill (index : Nat) (data : β) (sequence access : Nat) (s : WriteBackDisk δ β) :
    WriteBackDisk δ β :=
  { s.modifyEntry index (.refill data sequence access) with dirtyCount := s.dirtyCount + 1 }

def acceptBlock (block : Nat) (data : β) (sequence : Nat) : DiskM δ β Unit := do
  let (access, s) := (← get).nextAccess
  set s
  match s.lookupEntry block with
  | some index => set (s.overwrite index data sequence access)
  | none =>
    match s.reusableEntry (some (block, block + 1)) with
    | none => throw EAGAIN
    | some index =>
      match s.prepareEntry index block with
      | (false, s) =>
        set s
        throw EIO
      | (true, s) => set (s.refill index data sequence access)

def acceptBlocks : Nat → List β → DiskM δ β Unit
  | _, [] => return
  | block, data :: rest => do
    let s ← get
    let sequence := s.writeSequence + 1
    set { s with writeSequence := sequence }
    acceptBlock block data sequence
    modify (record (.accepted sequence block data))
    acceptBlocks (block + 1) rest

/-- A buffer is whole blocks and a rest shorter than a block. -/
structure Buffer (β : Type) where
  blocks : List β
  rest : Fin writebackBlockSize

def Buffer.byteLen (buffer : Buffer β) : Nat :=
  buffer.blocks.length * writebackBlockSize + buffer.rest

def writeAt (block : Nat) (buffer : Buffer β) : DiskM δ β Nat := do
  let blockCount ← validateTransfer block buffer.byteLen
  if blockCount = 0 then return 0
  preflightWrite block blockCount
  acceptBlocks block buffer.blocks
  return buffer.byteLen

/-- Where the run of blocks ends that are not in the cache. -/
def runEnd (block offset blockCount : Nat) (s : WriteBackDisk δ β) : Nat :=
  offset + 1 + ((List.range' (offset + 1) (blockCount - (offset + 1))).takeWhile fun offset =>
    (s.lookupEntry (block + offset)).isNone).length

def admitAll (s : WriteBackDisk δ β) (blocks : List (Nat × β)) : WriteBackDisk δ β :=
  blocks.foldl (fun s (block, data) => (s.admitClean block data).2) s

def orThrow {α : Type} : Except Errno α → DiskM δ β α
  | .ok value => pure value
  | .error errno => throw errno

/-- How many blocks are read when one is missing. -/
def readAheadCount (target : Nat) (backingBytes : Nat) (s : WriteBackDisk δ β) : Nat :=
  min (min (backingBytes / writebackBlockSize - target) readAheadBlocks) s.entries.length

/-- Read from the disk; a short read is an error. -/
def readBacking (target count : Nat) : DiskM δ β (List β) := do
  let (bytes, blocks) ← orThrow (← onInner (Disk.readAt target count))
  if bytes ≠ count * writebackBlockSize then throw EIO
  return blocks

/-- Only a single missing block is read ahead of. -/
def readAhead (target runBlocks : Nat) : DiskM δ β Nat := do
  if runBlocks ≠ 1 then return 0
  let backingBytes ← orThrow (← onInner Disk.size)
  let s ← get
  return s.readAheadCount target backingBytes.toNat

def readMissing (target runBlocks : Nat) : DiskM δ β (List β) := do
  let ahead ← readAhead target runBlocks
  if 1 < ahead then
    let blocks ← readBacking target ahead
    let admitted := (List.range' target ahead).zip blocks
    modify fun s => s.admitAll (admitted.drop 1 ++ admitted.take 1)
    return blocks.take 1
  else
    let blocks ← readBacking target runBlocks
    modify fun s => s.admitAll ((List.range' target runBlocks).zip blocks)
    return blocks

def readHit (index : Nat) : DiskM δ β β := do
  let (access, s) := (← get).nextAccess
  set s
  match s.entries[index]? with
  | none => throw EIO
  | some entry =>
    if entry.isVacant then throw EIO
    set (s.modifyEntry index ({ · with lastUsed := access }))
    return entry.data

/-- The blocks from `offset` on; every round reads at least one. -/
def readBlocks (block blockCount : Nat) : Nat → Nat → DiskM δ β (List β)
  | 0, _ => return []
  | room + 1, offset => do
    if offset < blockCount then
      let s ← get
      match s.lookupEntry (block + offset) with
      | some index =>
        let data ← readHit index
        return data :: (← readBlocks block blockCount room (offset + 1))
      | none =>
        let runEnd := s.runEnd block offset blockCount
        let blocks ← readMissing (block + offset) (runEnd - offset)
        return blocks ++ (← readBlocks block blockCount room runEnd)
    else return []

def readAt (block byteLen : Nat) : DiskM δ β (Nat × List β) := do
  let blockCount ← validateTransfer block byteLen
  let blocks ← readBlocks block blockCount blockCount 0
  return (byteLen, blocks)

def flush : DiskM δ β Unit := do
  let ticket ← requestDurability
  let s ← get
  if s.asyncWritebackEnabled then return
  match ← attempt (drainTicket ticket (s.entries.length + 1)) with
  | .error _ => throw EIO
  | .ok report => if !report.complete then throw EAGAIN

end WriteBackDisk

end Ginkgo.Kernel.Writeback
