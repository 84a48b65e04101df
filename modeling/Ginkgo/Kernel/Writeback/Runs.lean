import Ginkgo.Kernel.Writeback.Reads
import Ginkgo.Lib.Transition

/-!
# Runs of the write-back disk

A run starts with an empty cache of any size in front of an honest disk and makes any calls,
whatever fails below.  Its history is the writes it accepted, block by block.
-/

namespace Ginkgo.Kernel.Writeback

open Ginkgo.Lib List Option

variable {δ β : Type} {α : Type}

inductive Op (β : Type)
  | readAt (block byteLen : Nat)
  | writeAt (block : Nat) (buffer : WriteBackDisk.Buffer β)
  | flush
  | writebackStep
  | retryWritebackStep
  | drainTicket (ticket maxSteps : Nat)
  | quiesce
  | resumeAfterQuiesce
  | shutdownDrain (maxSteps : Nat)
  | enableAsyncWriteback

namespace WriteBackDisk

def Buffer.whole (blocks : List β) : Buffer β := ⟨blocks, ⟨0, by decide⟩⟩

/-- A call with what it accepts if it succeeds. -/
def onOk {α : Type} (call : DiskM δ β α) (writes : List (Nat × β)) (s : WriteBackDisk δ β) :
    List (Nat × β) × WriteBackDisk δ β :=
  match call s with
  | .ok _ s => (writes, s)
  | .error _ s => ([], s)

def outcome {α : Type} (call : DiskM δ β α) (s : WriteBackDisk δ β) : Except Errno α :=
  match call s with
  | .ok value _ => .ok value
  | .error errno _ => .error errno

theorem exists_of_outcome_ok {call : DiskM δ β α} {s : WriteBackDisk δ β} {value : α}
    (h : outcome call s = .ok value) : ∃ s', call s = .ok value s' := by
  unfold outcome at h
  split at h
  · rename_i s' hcall
    obtain rfl := Except.ok.inj h
    exact ⟨s', hcall⟩
  · cases h

theorem exists_of_outcome_error {call : DiskM δ β α} {s : WriteBackDisk δ β}
    {errno : Errno} (h : outcome call s = .error errno) : ∃ s', call s = .error errno s' := by
  unfold outcome at h
  split at h
  · cases h
  · rename_i s' hcall
    obtain rfl := Except.error.inj h
    exact ⟨s', hcall⟩

/-- One call, with the writes it accepts. -/
def exec [Disk δ β] : Op β → WriteBackDisk δ β → List (Nat × β) × WriteBackDisk δ β
  | .readAt block byteLen => onOk (readAt block byteLen) []
  | .writeAt block buffer =>
    onOk (writeAt block buffer) ((List.range' block buffer.blocks.length).zip buffer.blocks)
  | .flush => onOk flush []
  | .writebackStep => onOk writebackStep []
  | .retryWritebackStep => onOk retryWritebackStep []
  | .drainTicket ticket maxSteps => onOk (drainTicket ticket maxSteps) []
  | .quiesce => onOk quiesce []
  | .resumeAfterQuiesce => onOk resumeAfterQuiesce []
  | .shutdownDrain maxSteps => onOk (shutdownDrain maxSteps) []
  | .enableAsyncWriteback => fun s => ([], s.enableAsyncWriteback.2)

def Step [Disk δ β] (s : WriteBackDisk δ β) (writes : List (Nat × β)) (s' : WriteBackDisk δ β) :
    Prop :=
  ∃ op, exec op s = (writes, s')

def execAll [Disk δ β] : List (Op β) → WriteBackDisk δ β → List (Nat × β) × WriteBackDisk δ β
  | [], s => ([], s)
  | op :: ops, s =>
    let (writes, s) := exec op s
    let (history, s) := execAll ops s
    (writes ++ history, s)

theorem run_execAll [Disk δ β] (ops : List (Op β)) (s : WriteBackDisk δ β) :
    Star Step s (execAll ops s).1 (execAll ops s).2 := by
  induction ops generalizing s with
  | nil => exact .refl s
  | cons op ops ih => exact (Star.single ⟨op, rfl⟩).trans (ih (exec op s).2)

variable {content : δ → Nat → β} {origin : Nat → β} {s s' s₀ : WriteBackDisk δ β}
  {history : List (Nat × β)}

/-- A call that accepts these writes, or fails and accepts nothing. -/
theorem onOk_sane {call : DiskM δ β α} {writes : List (Nat × β)} (hcall : wp call
      (fun _ s' => s'.Sane content origin ∧ accepted s'.events = accepted s.events ++ writes)
      (fun _ s' => s'.Sane content origin ∧ accepted s'.events = accepted s.events) s) :
    (onOk call writes s).2.Sane content origin ∧
      accepted (onOk call writes s).2.events = accepted s.events ++ (onOk call writes s).1 := by
  unfold onOk
  split
  · rename_i hok
    have hdone := wp_ok hcall hok
    exact hdone
  · rename_i herr
    have hdone := wp_error hcall herr
    rw [append_nil]
    exact hdone

theorem onOk_sane_nil {call : DiskM δ β α} (hcall : Ends call
      (fun s' => s'.Sane content origin ∧ accepted s'.events = accepted s.events) s) :
    (onOk call [] s).2.Sane content origin ∧
      accepted (onOk call [] s).2.events = accepted s.events ++ (onOk call [] s).1 := by
  refine onOk_sane (wp_mono hcall (fun _ _ hok => ?_) fun _ _ herr => herr)
  rw [append_nil]
  exact hok

section Steps

variable [Disk δ β]

theorem exec_sane (hdisk : Honest δ β content) (h : s.Sane content origin) (op : Op β) :
    (exec op s).2.Sane content origin ∧
      accepted (exec op s).2.events = accepted s.events ++ (exec op s).1 := by
  have hsettles : ∀ {α : Type} (_ : α) s',
      s'.Sane content origin ∧ Settles s s' →
        s'.Sane content origin ∧ accepted s'.events = accepted s.events :=
    fun _ _ h => ⟨h.1, h.2.accepted⟩
  cases op with
  | readAt block byteLen =>
    refine onOk_sane_nil (wp_mono (wp_readAt hdisk h block byteLen) ?_ ?_)
    · exact fun _ _ hread => ⟨hread.2.2.2.1, by rw [hread.2.2.2.2]⟩
    · exact fun _ _ hread => ⟨hread.1, by rw [hread.2]⟩
  | writeAt block buffer =>
    exact onOk_sane (wp_mono (wp_writeAt hdisk h block buffer)
      (fun _ _ hok => ⟨hok.1, hok.2.1⟩) hsettles)
  | flush => exact onOk_sane_nil (wp_flush hdisk h)
  | writebackStep => exact onOk_sane_nil (wp_mono (wp_writebackStep hdisk h) hsettles hsettles)
  | retryWritebackStep =>
    exact onOk_sane_nil (wp_mono (wp_retryWritebackStep hdisk h) hsettles hsettles)
  | drainTicket ticket maxSteps =>
    exact onOk_sane_nil (wp_mono (wp_drainTicket hdisk h ticket maxSteps) hsettles hsettles)
  | quiesce => exact onOk_sane_nil (wp_quiesce h)
  | resumeAfterQuiesce => exact onOk_sane_nil (wp_resumeAfterQuiesce h)
  | shutdownDrain maxSteps => exact onOk_sane_nil (wp_shutdownDrain hdisk h maxSteps)
  | enableAsyncWriteback =>
    change s.enableAsyncWriteback.2.Sane content origin ∧
      accepted s.enableAsyncWriteback.2.events = accepted s.events ++ []
    rw [append_nil]
    unfold enableAsyncWriteback
    split
    · exact ⟨h, rfl⟩
    · exact ⟨h.steer _ _ true _, rfl⟩

end Steps

theorem checkedNextPowerOfTwo_eq_some {n power : Nat} (h : checkedNextPowerOfTwo n = some power) :
    (∃ k, power = 2 ^ k) ∧ n ≤ power := by
  unfold checkedNextPowerOfTwo at h
  by_cases hone : n ≤ 1
  · simp only [hone, if_true] at h
    split at h
    · cases h
      exact ⟨⟨0, rfl⟩, hone⟩
    · cases h
  · simp only [hone, if_false] at h
    split at h
    · cases h
      have hlt := Nat.lt_log2_self (n := n - 1)
      exact ⟨⟨_, rfl⟩, by omega⟩
    · cases h

theorem wp_orOverflow {value : Option Nat} {m : Budget} {Q : Nat → Budget → Prop}
    {E : WriteBackConfigError → Budget → Prop} (hok : ∀ count, value = some count → Q count m)
    (herr : E .capacityOverflow m) : wp (orOverflow value) Q E m := by
  cases value with
  | none => exact wp_throw herr
  | some count => exact wp_pure (hok count rfl)

section New

variable [Inhabited β]

/-- An empty cache with a table of the right size. -/
structure Empty (inner : δ) (s : WriteBackDisk δ β) : Prop where
  inner : s.inner = inner
  entries : s.entries = List.replicate s.entries.length .vacant
  lookup : s.lookup = List.replicate s.lookup.length .empty
  size : ∃ k, s.lookup.length = 2 ^ k
  mask : s.lookupMask = s.lookup.length - 1
  room : s.entries.length < s.lookup.length
  slots : s.flushTickets.length = s.entries.length + 1
  head : s.flushTicketHead = 0
  len : s.flushTicketLen = 0
  dirtyCount : s.dirtyCount = 0
  batch : 1 ≤ s.writebackBatchBlocks
  writeSequence : s.writeSequence = 0
  requestedSequence : s.requestedSequence = 0
  durableSequence : s.durableSequence = 0
  events : s.events = []

theorem wp_tryNewWithWritebackBatch (inner : δ) (entryCount batch : Nat) (budget : Budget) :
    wp (tryNewWithWritebackBatch inner entryCount batch)
      (fun (s : WriteBackDisk δ β) _ => Empty inner s) (fun _ _ => True) budget := by
  refine wp_ite (fun _ => wp_throw trivial) fun hzero => ?_
  refine wp_ite (fun _ => wp_throw trivial) fun hbatch => ?_
  refine wp_bind (wp_orOverflow (fun lookupCount hlook => ?_) trivial)
  refine wp_bind (wp_orOverflow (fun ticketCount htkts => ?_) trivial)
  obtain ⟨doubled, hdoubled, hpower⟩ := bind_eq_some_iff.mp hlook
  obtain ⟨hsize, hle⟩ := checkedNextPowerOfTwo_eq_some hpower
  have hroom : entryCount < lookupCount := by
    unfold checkedMul at hdoubled
    split at hdoubled
    · have heq := some.inj hdoubled
      omega
    · cases hdoubled
  obtain ⟨rfl, -⟩ := checkedAdd_some htkts
  iterate 4 refine wp_allocCapacity_bind fun _ => ?_
  refine wp_pure ?_
  refine ⟨rfl, ?_, ?_, ?_, ?_, ?_, ?_, rfl, rfl, rfl, by simp only; omega, rfl, rfl, rfl, rfl⟩
  all_goals simp only [length_replicate]
  · exact hsize
  · exact hroom

theorem Empty.sane {inner : δ} (h : Empty inner s) : s.Sane content (content inner) := by
  have hvac : ∀ {index : Nat} {entry : CacheEntry β},
      s.entries[index]? = some entry → entry = .vacant := by
    intro index entry hent
    have hmem := mem_of_getElem? hent
    rw [h.entries] at hmem
    exact eq_of_mem_replicate hmem
  have hslots : ∀ {i : Nat} {slot : ProbeSlot Nat Nat}, s.lookup[i]? = some slot →
      slot = .empty := by
    intro i slot hslot
    have hmem := mem_of_getElem? hslot
    rw [h.lookup] at hmem
    exact eq_of_mem_replicate hmem
  have hindexed : s.Indexed := by
    refine ⟨h.size, h.mask, h.room, fun i key value hslot => ?_, fun block index => ?_⟩
    · cases hslots hslot
    constructor
    · rintro ⟨i, hslot⟩
      cases hslots hslot
    · rintro ⟨entry, hent, hused, -⟩
      rw [hvac hent] at hused
      exact absurd rfl hused
  have hresid : ∀ block, s.residence block = .absent := by
    intro block
    rcases hindexed.lookup_cases block with ⟨-, hnone⟩ | ⟨index, entry, -, hent, hused, -⟩
    · exact hnone
    · rw [hvac hent] at hused
      exact absurd rfl hused
  have hpend : s.pending = [] := by
    unfold pending
    rw [h.len]
    rfl
  have hacc : accepted s.events = [] := by
    rw [h.events]
    rfl
  refine ⟨⟨hindexed, h.slots, ?_, ?_, ?_, ?_, ?_, ?_, h.batch, ?_⟩, ?_, ?_⟩
  · rw [h.head, h.slots]
    exact Nat.succ_pos _
  · rw [h.dirtyCount, h.entries, countP_replicate]
    rfl
  · rw [h.writeSequence, hacc]
    rfl
  · rw [h.requestedSequence, hpend, h.durableSequence]
    rfl
  · rw [h.events]
    rfl
  · rw [h.durableSequence, h.events]
    rfl
  · intro entry hmem
    obtain ⟨index, hent⟩ := mem_iff_getElem?.mp hmem
    rw [hvac hent]
    change 0 < wordMax
    decide
  · unfold ledger
    rw [hpend, hacc, h.inner, h.durableSequence]
    have hdirty : ∀ {block data first last}, s.residence block ≠ .dirty data first last := by
      intro block data first last
      rw [hresid]
      exact nofun
    refine ⟨?_, ?_, fun _ _ => rfl, ?_, pairwise_singleton _ _, le_rfl, nofun, nofun, ⟨?_, nofun⟩⟩
    · intro block data hclean
      exact nomatch (hresid block).symm.trans hclean
    · exact fun _ _ _ _ hd => absurd hd hdirty
    · exact fun _ _ _ _ hd => absurd hd hdirty
    · intro before ticket ticket' after heq
      simp at heq
  · rw [h.events]
    intro past ticket inner result future heq
    simp at heq

end New

/-! ## A disk in memory -/

/-- A disk of sixteen blocks; its next writes and flushes fail with these errors. -/
structure FakeDisk where
  writes : List (Nat × Nat)
  failWrites : List Errno
  failFlushes : List Errno

namespace FakeDisk

def blocks (disk : FakeDisk) : Nat → Nat := replay (fun block => block) disk.writes

instance : Disk FakeDisk Nat where
  readAt block count disk :=
    (.ok (count * writebackBlockSize, (List.range' block count).map disk.blocks), disk)
  writeAt block blocks disk :=
    match disk.failWrites with
    | errno :: rest => (.error errno, { disk with failWrites := rest })
    | [] => (.ok (blocks.length * writebackBlockSize),
        { disk with writes := disk.writes ++ (List.range' block blocks.length).zip blocks })
  flush disk :=
    match disk.failFlushes with
    | errno :: rest => (.error errno, { disk with failFlushes := rest })
    | [] => (.ok (), disk)
  size disk := (.ok 65536, disk)

theorem honest : Honest FakeDisk Nat blocks where
  read block count inner read inner' h := by
    obtain ⟨hread, -⟩ := Prod.mk.inj h
    exact (Prod.mk.inj (Except.ok.inj hread)).2.symm
  read_keeps _ _ _ := rfl
  write block data inner inner' h := by
    simp only [Disk.writeAt] at h
    split at h
    · cases (Prod.mk.inj h).1
    · rw [← (Prod.mk.inj h).2]
      exact replay_append ..
  write_keeps block data inner block' houtside := by
    simp only [Disk.writeAt]
    split
    · rfl
    · refine (congrFun (replay_append ..) block').trans (replay_of_forall_ne fun write hwrite => ?_)
      have hmem := mem_range'_1.mp (of_mem_zip hwrite).1
      omega
  flush_keeps inner := by
    simp only [Disk.flush]
    split <;> rfl
  size_keeps _ := rfl

def new : FakeDisk := ⟨[], [], []⟩

/-- A cache of two blocks. -/
def cacheOf (inner : FakeDisk) : WriteBackDisk FakeDisk Nat where
  inner := inner
  entries := List.replicate 2 .vacant
  lookup := List.replicate 4 .empty
  lookupMask := 3
  flushTickets := List.replicate 3 0
  flushTicketHead := 0
  flushTicketLen := 0
  dirtyCount := 0
  writebackBatchBlocks := 2
  accessClock := 0
  writeSequence := 0
  requestedSequence := 0
  durableSequence := 0
  asyncWritebackEnabled := false
  quiesced := false
  failure := none
  events := []

theorem tryNew_eq (inner : FakeDisk) :
    tryNewWithWritebackBatch inner 2 2 none = .ok (cacheOf inner) none := rfl

def cache : WriteBackDisk FakeDisk Nat := cacheOf new

/-- The third block does not fit, so the first two are written back. -/
def spill : List (Op Nat) :=
  [.writeAt 0 (.whole [7, 8]), .writeAt 0 (.whole [9]), .writeAt 5 (.whole [1]),
    .readAt 3 writebackBlockSize]

/-- A cache that does not write back in the call of `flush`. -/
def pendingTwo : List (Op Nat) :=
  [.enableAsyncWriteback, .writeAt 0 (.whole [7]), .flush, .writeAt 1 (.whole [8]), .flush]

def flushed : List (Op Nat) :=
  [.writeAt 0 (.whole [7, 8]), .flush, .writeAt 0 (.whole [9]), .writebackStep]

end FakeDisk

/-! ## Every run -/

variable [Inhabited β] [Disk δ β] {inner : δ} {entryCount batch : Nat} {budget budget' : Budget}

theorem run_sane (hdisk : Honest δ β content)
    (hnew : tryNewWithWritebackBatch inner entryCount batch budget = .ok s₀ budget')
    (hrun : Star Step s₀ history s) :
    s.Sane content (content inner) ∧ accepted s.events = history := by
  have hempty := wp_ok (wp_tryNewWithWritebackBatch inner entryCount batch budget) hnew
  refine hrun.invariant (I := fun history s =>
    s.Sane content (content inner) ∧ accepted s.events = history) ⟨hempty.sane, ?_⟩ ?_
  · rw [hempty.events]
    rfl
  · rintro past a writes b ⟨ha, rfl⟩ ⟨op, hop⟩
    have hstep := exec_sane hdisk ha op
    rw [hop] at hstep
    exact hstep

/-- Whatever was read ahead, evicted or failed to be written back, a read returns the latest
accepted write of every block. -/
theorem run_readAt_latest (hdisk : Honest δ β content)
    (hnew : tryNewWithWritebackBatch inner entryCount batch budget = .ok s₀ budget')
    (hrun : Star Step s₀ history s) {block byteLen bytes : Nat} {blocks : List β}
    (hread : readAt block byteLen s = .ok (bytes, blocks) s') :
    bytes = byteLen ∧ byteLen = blocks.length * writebackBlockSize ∧
      ∀ i data, blocks[i]? = some data → data = replay (content inner) history (block + i) := by
  obtain ⟨hsane, rfl⟩ := run_sane hdisk hnew hrun
  obtain ⟨rfl, haligned, hblocks, -⟩ := wp_ok (wp_readAt hdisk hsane block byteLen) hread
  have hblocks : blocks = s.latest (content inner) block (bytes / writebackBlockSize) := hblocks
  refine ⟨rfl, ?_, fun i data hdata => ?_⟩
  · rw [hblocks, latest, length_map, length_range',
      Nat.div_mul_cancel (Nat.dvd_of_mod_eq_zero haligned)]
  · rw [hblocks, latest, getElem?_map] at hdata
    obtain ⟨b, hb, rfl⟩ := map_eq_some_iff.mp hdata
    obtain ⟨-, rfl⟩ := List.getElem?_eq_some_iff.mp hb
    rw [getElem_range', Nat.one_mul]

theorem run_readAt_latest_fakeDisk :
    (execAll FakeDisk.spill FakeDisk.cache).1 = [(0, 7), (1, 8), (0, 9), (5, 1)] ∧
      ∃ s', readAt 0 (2 * writebackBlockSize) (execAll FakeDisk.spill FakeDisk.cache).2 =
          .ok (2 * writebackBlockSize, [9, 8]) s' ∧
        ∀ i data, [9, 8][i]? = some data → data = replay (FakeDisk.blocks FakeDisk.new)
          (execAll FakeDisk.spill FakeDisk.cache).1 (0 + i) := by
  obtain ⟨s', hread⟩ : ∃ s', readAt 0 (2 * writebackBlockSize)
      (execAll FakeDisk.spill FakeDisk.cache).2 = .ok (2 * writebackBlockSize, [9, 8]) s' :=
    exists_of_outcome_ok (by decide +kernel)
  exact ⟨by decide +kernel, s', hread,
    (run_readAt_latest FakeDisk.honest (FakeDisk.tryNew_eq FakeDisk.new)
      (run_execAll FakeDisk.spill FakeDisk.cache) hread).2.2⟩

/-- When no block counts as dirty, the disk holds all accepted writes. -/
theorem run_drained_on_disk (hdisk : Honest δ β content)
    (hnew : tryNewWithWritebackBatch inner entryCount batch budget = .ok s₀ budget')
    (hrun : Star Step s₀ history s) (hdrained : s.dirtyCount = 0) :
    content s.inner = replay (content inner) history := by
  obtain ⟨hsane, rfl⟩ := run_sane hdisk hnew hrun
  have hnone := countP_eq_zero.mp (hsane.consistent.dirtyCount.symm.trans hdrained)
  refine funext fun block => hsane.sound.backed block fun data first last hdirty => ?_
  obtain ⟨_, entry, hent, hst, -⟩ := hsane.consistent.indexed.dirty_iff.mp hdirty
  exact hnone entry (mem_of_getElem? hent) (decide_eq_true hst)

theorem run_drained_on_disk_flushed :
    FakeDisk.blocks (execAll FakeDisk.flushed FakeDisk.cache).2.inner =
      replay (FakeDisk.blocks FakeDisk.new) (execAll FakeDisk.flushed FakeDisk.cache).1 :=
  run_drained_on_disk FakeDisk.honest (FakeDisk.tryNew_eq _) (run_execAll FakeDisk.flushed _)
    (by decide +kernel)

omit [Inhabited β] in
/-- What is recorded of a flush is what the inner disk was asked and answered. -/
theorem flushBacking_records (ticket : Nat) (s : WriteBackDisk δ β) :
    Ends (flushBacking ticket) (fun s' => s'.events = s.events ++
      [.flush ticket s.inner (Disk.flush s.inner).1]) s := by
  unfold flushBacking
  refine wp_get (wp_bind (wp_onInner fun result inner hflush => wp_modify_bind ?_))
  rw [hflush]
  cases result with
  | error errno =>
    refine wp_modify_bind (wp_throw ?_)
    unfold recordFailure
    split <;> rfl
  | ok value => exact wp_modify_bind (wp_pure rfl)

/-- The flushes of a run are exact barriers. -/
structure Barriers (content : δ → Nat → β) (origin : Nat → β) (history : List (Nat × β))
    (s : WriteBackDisk δ β) : Prop where
  accepted : accepted s.events = history
  numbered : s.events.filterMap Event.sequence? = List.range' 1 history.length
  exact : Exact content origin s.events
  durable : s.durableSequence = lastFlushed s.events
  durable_le : s.durableSequence ≤ s.requestedSequence
  requested_le : s.requestedSequence ≤ s.writeSequence
  recorded : ∀ ticket, Ends (flushBacking ticket) (fun s' => s'.events = s.events ++
    [.flush ticket s.inner (Disk.flush s.inner).1]) s

theorem run_barriers (hdisk : Honest δ β content)
    (hnew : tryNewWithWritebackBatch inner entryCount batch budget = .ok s₀ budget')
    (hrun : Star Step s₀ history s) : Barriers content (content inner) history s := by
  obtain ⟨hsane, rfl⟩ := run_sane hdisk hnew hrun
  have hc := hsane.consistent
  refine ⟨rfl, hc.numbered, hsane.exact, hc.durable, ?_, hsane.requested_le,
    fun ticket => flushBacking_records ticket s⟩
  rw [hc.requestedSequence]
  by_cases hnil : s.pending = []
  · rw [hnil]
    exact le_rfl
  · have hlast : s.pending.getLastD s.durableSequence ∈ s.pending := by
      rw [getLastD_eq_getLast?, getLast?_eq_some_getLast hnil]
      exact getLast_mem hnil
    exact Nat.le_of_lt ((pairwise_cons.mp hsane.sound.ordered).1 _ hlast)

theorem run_barriers_fakeDisk : (execAll FakeDisk.flushed FakeDisk.cache).2.durableSequence = 2 ∧
      Barriers FakeDisk.blocks (FakeDisk.blocks FakeDisk.new)
        (execAll FakeDisk.flushed FakeDisk.cache).1 (execAll FakeDisk.flushed FakeDisk.cache).2 :=
  ⟨by decide +kernel,
    run_barriers FakeDisk.honest (FakeDisk.tryNew_eq _) (run_execAll FakeDisk.flushed _)⟩

/-- Nothing was accepted, and a block changed at most from dirty to clean. -/
structure Untouched (content : δ → Nat → β) (s s' : WriteBackDisk δ β) : Prop where
  writeSequence : s'.writeSequence = s.writeSequence
  accepted : accepted s'.events = accepted s.events
  dataAt : s'.dataAt content = s.dataAt content
  residence : ∀ block, s'.residence block = s.residence block ∨
    ∃ data first last, s.residence block = .dirty data first last ∧ s'.residence block = .clean data

/-- All blocks were accepted in order, and each is dirty with its new data. -/
structure Written (block : Nat) (blocks : List β) (s s' : WriteBackDisk δ β) : Prop where
  writeSequence : s'.writeSequence = s.writeSequence + blocks.length
  accepted : accepted s'.events = accepted s.events ++ (range' block blocks.length).zip blocks
  dirty : ∀ i data, blocks[i]? = some data →
    ∃ first last, s'.residence (block + i) = .dirty data first last

/-- A write that fails accepts nothing, and one that returns has accepted all of its blocks. -/
theorem run_writeAt_atomic (hdisk : Honest δ β content)
    (hnew : tryNewWithWritebackBatch inner entryCount batch budget = .ok s₀ budget')
    (hrun : Star Step s₀ history s) (block : Nat) (buffer : Buffer β) :
    (∀ count s₁ s₂, validateTransfer block buffer.byteLen s = .ok count s₁ →
      preflightWrite block count s₁ = .ok () s₂ →
        ∃ s₃, acceptBlocks block buffer.blocks s₂ = .ok () s₃) ∧
      (∀ errno s', writeAt block buffer s = .error errno s' → Untouched content s s') ∧
      ∀ bytes s', writeAt block buffer s = .ok bytes s' →
        bytes = buffer.byteLen ∧ Written block buffer.blocks s s' := by
  obtain ⟨hsane, rfl⟩ := run_sane hdisk hnew hrun
  have hwp := wp_writeAt hdisk hsane block buffer
  refine ⟨?_, ?_, ?_⟩
  · intro count s₁ s₂ hvalidate hpreflight
    have hvalid : wp (validateTransfer block buffer.byteLen)
        (fun count s' => s' = s ∧ count = buffer.byteLen / writebackBlockSize ∧
          block + buffer.byteLen / writebackBlockSize ≤ wordMax) (fun _ _ => True) s :=
      wp_validateTransfer (fun _ hrange => ⟨rfl, rfl, hrange⟩) fun _ => trivial
    obtain ⟨rfl, rfl, hrange⟩ := wp_ok hvalid hvalidate
    rw [buffer.byteLen_div] at hrange hpreflight
    obtain ⟨h2, -, hadmits⟩ := wp_ok (wp_preflightWrite hdisk hsane _ _) hpreflight
    have haccept := wp_acceptBlocks h2 hrange hadmits
    cases hresult : acceptBlocks block buffer.blocks s₂ with
    | ok value s₃ => exact ⟨s₃, rfl⟩
    | error errno s₃ => exact (wp_error haccept hresult).elim
  · intro errno s' hwrite
    obtain ⟨hsane', hsettles⟩ := wp_error hwp hwrite
    refine ⟨hsettles.writeSequence, hsettles.accepted, ?_, hsettles.residence⟩
    funext b
    rw [hsane'.dataAt_eq, hsane.dataAt_eq, hsettles.accepted]
  · intro bytes s' hwrite
    obtain ⟨hsane', haccepted, hbytes, hdirty⟩ := wp_ok hwp hwrite
    refine ⟨hbytes, ?_, haccepted, fun i data hdata => ?_⟩
    · rw [hsane'.consistent.writeSequence, hsane.consistent.writeSequence, haccepted]
      simp
    · have hmem : block + i ∈ range' block buffer.blocks.length :=
        mem_range'_1.mpr ⟨Nat.le_add_right _ _, Nat.add_lt_add_left (lt_length hdata) _⟩
      obtain ⟨value, first, last, hresid⟩ := dirtyAt_eq_true.mp (hdirty _ hmem)
      have hvalue : value = replay _ (accepted s'.events) (block + i) :=
        hsane'.sound.dirty _ _ _ _ hresid
      rw [haccepted, replay_append, replay_range' hdata] at hvalue
      exact ⟨first, last, hvalue ▸ hresid⟩

theorem run_writeAt_atomic_fakeDisk :
    (∃ bytes s', writeAt 1 (.whole [3, 4]) (execAll FakeDisk.spill FakeDisk.cache).2 =
      .ok bytes s' ∧
      Written 1 [3, 4] (execAll FakeDisk.spill FakeDisk.cache).2 s') ∧
    ∃ s', writeAt 0 (.whole [1, 2, 3]) (execAll FakeDisk.spill FakeDisk.cache).2 =
      .error ENOSPC s' ∧
      Untouched FakeDisk.blocks (execAll FakeDisk.spill FakeDisk.cache).2 s' := by
  have hatomic := run_writeAt_atomic FakeDisk.honest (FakeDisk.tryNew_eq _)
    (run_execAll FakeDisk.spill FakeDisk.cache)
  constructor
  · obtain ⟨s', hwrite⟩ : ∃ s', writeAt 1 (.whole [3, 4])
        (execAll FakeDisk.spill FakeDisk.cache).2 = .ok (2 * writebackBlockSize) s' :=
      exists_of_outcome_ok (by decide +kernel)
    exact ⟨_, s', hwrite, ((hatomic 1 (.whole [3, 4])).2.2 _ s' hwrite).2⟩
  · obtain ⟨s', hwrite⟩ : ∃ s', writeAt 0 (.whole [1, 2, 3])
        (execAll FakeDisk.spill FakeDisk.cache).2 = .error ENOSPC s' :=
      exists_of_outcome_error (by decide +kernel)
    exact ⟨s', hwrite, (hatomic 0 (.whole [1, 2, 3])).2.1 ENOSPC s' hwrite⟩

/-- There is room for the next ticket, and what a request fails with is an older failure. -/
structure Roomy (s : WriteBackDisk δ β) : Prop where
  pending_le : s.pending.length ≤ 1 + s.entries.countP CacheEntry.isDirty
  gap : ∀ before ticket ticket' after, s.pending = before ++ ticket :: ticket' :: after →
    ∃ entry ∈ s.entries, entry.state = .dirty ∧ ticket < entry.firstSequence ∧
      entry.firstSequence ≤ ticket'
  request : s.failure = none → ∃ s', requestDurability s = .ok s.writeSequence s'
  failed : ∀ failure, s.failure = some failure → requestDurability s = .error failure.errno s

theorem run_roomy (hdisk : Honest δ β content)
    (hnew : tryNewWithWritebackBatch inner entryCount batch budget = .ok s₀ budget')
    (hrun : Star Step s₀ history s) : s.Roomy := by
  obtain ⟨hsane, -⟩ := run_sane hdisk hnew hrun
  have hrequest := wp_requestDurability hsane
  refine ⟨?_, fun before ticket ticket' after hpending => ?_, fun hnone => ?_,
    fun failure hfailure => ?_⟩
  · rw [Nat.add_comm]
    exact hsane.pending_le
  · obtain ⟨first, hfirst, hlt, hle⟩ := hsane.gap hpending
    obtain ⟨entry, hentry, rfl⟩ := mem_map.mp hfirst
    obtain ⟨hmem, hdirty⟩ := mem_filter.mp hentry
    exact ⟨entry, hmem, of_decide_eq_true hdirty, hlt, hle⟩
  · cases hresult : requestDurability s with
    | ok ticket s' =>
      obtain ⟨-, -, rfl, -⟩ := wp_ok hrequest hresult
      exact ⟨s', rfl⟩
    | error errno s' =>
      obtain ⟨-, failure, hfailure, -⟩ := wp_error hrequest hresult
      exact nomatch hnone.symm.trans hfailure
  · cases hresult : requestDurability s with
    | ok ticket s' =>
      obtain ⟨-, -, -, hnone⟩ := wp_ok hrequest hresult
      exact nomatch hnone.symm.trans hfailure
    | error errno s' =>
      obtain ⟨rfl, failure', hfailure', rfl⟩ := wp_error hrequest hresult
      rw [some.inj (hfailure.symm.trans hfailure')]

theorem run_roomy_fakeDisk : (execAll FakeDisk.pendingTwo FakeDisk.cache).2.pending = [1, 2] ∧
      (execAll FakeDisk.pendingTwo FakeDisk.cache).2.Roomy :=
  ⟨by decide +kernel, run_roomy FakeDisk.honest (FakeDisk.tryNew_eq _)
    (run_execAll FakeDisk.pendingTwo _)⟩

/-- The error of a write that failed is what the next request returns. -/
theorem requestDurability_eq_error_eagain :
    ∃ history s, Star Step (FakeDisk.cacheOf ⟨[], [EAGAIN], []⟩) history s ∧
      outcome requestDurability s = .error EAGAIN :=
  ⟨_, _, run_execAll [.writeAt 0 (.whole [7]), .writebackStep] _, by decide +kernel⟩

end WriteBackDisk

end Ginkgo.Kernel.Writeback
