import Ginkgo.Kernel.Writeback.Index
import Ginkgo.Lib.Ring

/-!
# The write-back disk keeps a ledger

Every call of the write-back disk takes steps of the ledger that its entries, its ring of
tickets and its record of accepted writes make up.  The disk below is honest: it returns what
was last written, whatever else fails.
-/

namespace Ginkgo.Kernel.Writeback

open Ginkgo.Lib List CacheEntry Function

variable {δ β : Type}

/-- What a disk below holds, and that it holds on to it.  A call may fail at any time; a write
that fails leaves the blocks it was for in any state. -/
structure Honest (δ β : Type) [Disk δ β] (content : δ → Nat → β) : Prop where
  read : ∀ block count inner blocks inner',
    Disk.readAt block count inner = (.ok (count * writebackBlockSize, blocks), inner') →
      blocks = (range' block count).map (content inner)
  read_keeps : ∀ block count inner, content (Disk.readAt block count inner).2 = content inner
  write : ∀ block blocks inner inner',
    Disk.writeAt block blocks inner = (.ok (blocks.length * writebackBlockSize), inner') →
      content inner' = replay (content inner) ((range' block blocks.length).zip blocks)
  write_keeps : ∀ block blocks inner block', block' < block ∨ block + blocks.length ≤ block' →
      content (Disk.writeAt block blocks inner).2 block' = content inner block'
  flush_keeps : ∀ inner, content (Disk.flush inner).2 = content inner
  size_keeps : ∀ inner, content (Disk.size inner).2 = content inner

def Event.write? : Event δ β → Option (Nat × β)
  | .accepted _ block data => some (block, data)
  | .flush _ _ _ => none

/-- The writes that were accepted, in order. -/
def accepted (events : List (Event δ β)) : List (Nat × β) := events.filterMap Event.write?

def Event.sequence? : Event δ β → Option Nat
  | .accepted sequence _ _ => some sequence
  | .flush _ _ _ => none

def Event.flushed? : Event δ β → Option Nat
  | .flush ticket _ (.ok ()) => some ticket
  | _ => none

/-- The last ticket whose flush succeeded. -/
def lastFlushed (events : List (Event δ β)) : Nat := (events.filterMap Event.flushed?).getLastD 0

namespace WriteBackDisk

def pending (s : WriteBackDisk δ β) : List Nat :=
  ring s.flushTickets s.flushTicketHead s.flushTicketLen

def ledger (content : δ → Nat → β) (s : WriteBackDisk δ β) : Ledger β where
  residence := s.residence
  disk := content s.inner
  writes := accepted s.events
  tickets := s.pending
  durable := s.durableSequence

/-- The tables and counters agree with each other and with the record. -/
structure Consistent (s : WriteBackDisk δ β) : Prop where
  indexed : s.Indexed
  slots : s.flushTickets.length = s.entries.length + 1
  head : s.flushTicketHead < s.flushTickets.length
  dirtyCount : s.dirtyCount = s.entries.countP CacheEntry.isDirty
  writeSequence : s.writeSequence = (accepted s.events).length
  requestedSequence : s.requestedSequence = s.pending.getLastD s.durableSequence
  numbered : s.events.filterMap Event.sequence? = range' 1 (accepted s.events).length
  durable : s.durableSequence = lastFlushed s.events
  batch : 1 ≤ s.writebackBatchBlocks
  bounded : ∀ entry ∈ s.entries, entry.block < wordMax

/-- Every flush found on the disk the writes up to its ticket, and no other. -/
def Exact (content : δ → Nat → β) (origin : Nat → β) (events : List (Event δ β)) : Prop :=
  ∀ past ticket inner result future, events = past ++ .flush ticket inner result :: future →
    ticket ≤ (accepted past).length ∧ content inner = replay origin ((accepted past).take ticket)

structure Sane (content : δ → Nat → β) (origin : Nat → β) (s : WriteBackDisk δ β) : Prop where
  consistent : s.Consistent
  sound : (s.ledger content).Sound origin
  exact : Exact content origin s.events

variable {content : δ → Nat → β} {origin : Nat → β} {s s' : WriteBackDisk δ β}
  {entry : CacheEntry β} {index block : Nat}

theorem Indexed.of_eq (h : s.Indexed) (hents : s'.entries = s.entries)
    (hlook : s'.lookup = s.lookup) (hmask : s'.lookupMask = s.lookupMask) : s'.Indexed := by
  refine ⟨?_, ?_, ?_, ?_, fun block index => ?_⟩
  · rw [hlook]
    exact h.size
  · rw [hmask, hlook]
    exact h.mask
  · rw [hents, hlook]
    exact h.room
  · rw [path_eq hmask (by rw [hlook]), hlook]
    exact h.wf
  · rw [hents, hlook]
    exact h.holds block index

theorem residence_of_eq (hents : s'.entries = s.entries) (hlook : s'.lookup = s.lookup)
    (hmask : s'.lookupMask = s.lookupMask) : s'.residence = s.residence := by
  unfold residence lookupEntry
  rw [path_eq hmask (by rw [hlook]), hents, hlook]

theorem Sane.steer (h : s.Sane content origin) (failure : Option WriteBackFailure)
    (quiesced asyncWritebackEnabled : Bool) (accessClock : Nat) :
    ({ s with
      failure := failure
      quiesced := quiesced
      asyncWritebackEnabled := asyncWritebackEnabled
      accessClock := accessClock } : WriteBackDisk δ β).Sane content origin := by
  obtain ⟨⟨hindexed, hslots, hhead, hcnt, hwrite, hreqd, hnumbered, hdura, hbatch,
    hbnd⟩, hsound, hexact⟩ := h
  exact ⟨⟨hindexed.of_eq rfl rfl rfl, hslots, hhead, hcnt, hwrite, hreqd, hnumbered, hdura,
    hbatch, hbnd⟩, hsound, hexact⟩

/-- The disk below and the tickets are the same. -/
structure SameQueue (s s' : WriteBackDisk δ β) : Prop where
  inner : s'.inner = s.inner
  flushTickets : s'.flushTickets = s.flushTickets
  flushTicketHead : s'.flushTicketHead = s.flushTicketHead
  flushTicketLen : s'.flushTicketLen = s.flushTicketLen
  requestedSequence : s'.requestedSequence = s.requestedSequence
  durableSequence : s'.durableSequence = s.durableSequence
  writebackBatchBlocks : s'.writebackBatchBlocks = s.writebackBatchBlocks

theorem SameQueue.pending (h : SameQueue s s') : s'.pending = s.pending := by
  unfold WriteBackDisk.pending
  rw [h.flushTickets, h.flushTicketHead, h.flushTicketLen]

theorem SameQueue.ledger (h : SameQueue s s') (content : δ → Nat → β) :
    s'.ledger content = { s.ledger content with
      residence := s'.residence
      writes := accepted s'.events } := by
  unfold WriteBackDisk.ledger
  rw [h.inner, h.pending, h.durableSequence]

theorem accepted_append (events events' : List (Event δ β)) :
    accepted (events ++ events') = accepted events ++ accepted events' := filterMap_append

section

variable (h : s.Sane content origin) (hq : SameQueue s s') (hindexed : s'.Indexed)
  (hlen : s'.entries.length = s.entries.length)
  (hbnd : ∀ entry ∈ s'.entries, entry.block < wordMax)
  (hcnt : s'.dirtyCount = s'.entries.countP CacheEntry.isDirty)
include h hq hindexed hlen hbnd hcnt

/-- The entries and the table change; the ledger has its blocks elsewhere. -/
theorem Sane.reenter (hwrite : s'.writeSequence = s.writeSequence) (hevs : s'.events = s.events)
    (hsound : ({ s.ledger content with residence := s'.residence } : Ledger β).Sound origin) :
    s'.Sane content origin := by
  have hc := h.consistent
  refine ⟨⟨hindexed, ?_, ?_, hcnt, ?_, ?_, ?_, ?_, ?_, hbnd⟩, ?_, ?_⟩
  · rw [hq.flushTickets, hlen]
    exact hc.slots
  · rw [hq.flushTicketHead, hq.flushTickets]
    exact hc.head
  · rw [hwrite, hevs]
    exact hc.writeSequence
  · rw [hq.requestedSequence, hq.pending, hq.durableSequence]
    exact hc.requestedSequence
  · rw [hevs]
    exact hc.numbered
  · rw [hq.durableSequence, hevs]
    exact hc.durable
  · rw [hq.writebackBatchBlocks]
    exact hc.batch
  · rw [hq.ledger, hevs]
    exact hsound
  · rw [hevs]
    exact h.exact

/-- The ledger has accepted the block, and so have the tables. -/
theorem Sane.file {data : β} (hwrite : s'.writeSequence = s.writeSequence + 1)
    (hevs : s'.events = s.events ++ [.accepted (s.writeSequence + 1) block data])
    {residence : Nat → Residence β}
    (hbef : ({ s.ledger content with residence := residence } : Ledger β).Sound origin)
    (hafter : s'.residence =
      (({ s.ledger content with residence := residence } : Ledger β).accept block data).residence)
    (hopen : ∀ old first last, residence block = .dirty old first last →
      s.pending = [] ∨ s.requestedSequence < first) : s'.Sane content origin := by
  have hc := h.consistent
  have hacc : accepted s'.events = accepted s.events ++ [(block, data)] := by
    rw [hevs]
    exact accepted_append ..
  have hwrites : (accepted s'.events).length = (accepted s.events).length + 1 := by
    rw [hacc, length_append]
    rfl
  refine ⟨⟨hindexed, ?_, ?_, hcnt, ?_, ?_, ?_, ?_, ?_, hbnd⟩, ?_, ?_⟩
  · rw [hq.flushTickets, hlen]
    exact hc.slots
  · rw [hq.flushTicketHead, hq.flushTickets]
    exact hc.head
  · rw [hwrite, hwrites, ← hc.writeSequence]
  · rw [hq.requestedSequence, hq.pending, hq.durableSequence]
    exact hc.requestedSequence
  · rw [hwrites, hevs, filterMap_append, hc.numbered, range'_concat, hc.writeSequence]
    simp [Event.sequence?, Nat.add_comm]
  · rw [hq.durableSequence, hc.durable, hevs]
    unfold lastFlushed
    simp [Event.flushed?]
  · rw [hq.writebackBatchBlocks]
    exact hc.batch
  · rw [hq.ledger, hacc, hafter]
    refine hbef.accept block data fun old first last hd => ?_
    rcases hopen old first last hd with hnil | hlt
    · exact .inl hnil
    · refine .inr ?_
      rw [hc.requestedSequence] at hlt
      exact hlt
  · intro past ticket inner result future heq
    rw [hevs] at heq
    rcases concat_eq_append_cons heq with ⟨-, -, hcontra⟩ | ⟨rest, -, heq⟩
    · cases hcontra
    · exact h.exact past ticket inner result rest heq

end

theorem Consistent.bounded_set (h : s.Consistent) (index : Nat) (hent : entry.block < wordMax) :
    ∀ e ∈ s.entries.set index entry, e.block < wordMax :=
  forall_mem_set h.bounded hent

theorem Sane.touch (h : s.Sane content origin) {entry' : CacheEntry β}
    (hent : s.entries[index]? = some entry) (hused : entry.state ≠ .vacant)
    (hst : entry'.state = entry.state) (hblock : entry'.block = entry.block)
    (hresid : residenceOf entry' = residenceOf entry) :
    ({ s with entries := s.entries.set index entry' } : WriteBackDisk δ β).Sane content origin := by
  have hindexed := h.consistent.indexed
  have hused' : entry'.state ≠ .vacant := by rw [hst]; exact hused
  refine h.reenter ⟨rfl, rfl, rfl, rfl, rfl, rfl, rfl⟩ (hindexed.set hent hused hused' hblock)
    length_set (h.consistent.bounded_set index ?_) ?_ rfl rfl ?_
  · rw [hblock]
    exact h.consistent.bounded entry (mem_of_getElem? hent)
  · have hcnt := countP_set_add (p := isDirty) hent entry'
    have hsame : entry'.isDirty = entry.isDirty := by
      unfold isDirty
      rw [hst]
    rw [hsame] at hcnt
    exact h.consistent.dirtyCount.trans (Nat.add_right_cancel hcnt).symm
  · rw [hindexed.residence_set hent hused hused' hblock, hresid,
      ← hindexed.residence_entry hent hused, update_eq_self]
    exact h.sound

theorem minEntry_eq_some {test : CacheEntry β → Bool} {key : CacheEntry β → Nat}
    (h : s.minEntry test key = some index) :
    ∃ entry, s.entries[index]? = some entry ∧ test entry = true ∧
      ∀ (i : Nat) (e : CacheEntry β), s.entries[i]? = some e → test e = true →
        key entry ≤ key e := by
  obtain ⟨entry, hent, htest⟩ := mem_indices.mp (argmin_mem h)
  refine ⟨entry, hent, htest, fun i e he hte => ?_⟩
  have hle := le_of_mem_argmin (mem_indices.mpr ⟨e, he, hte⟩) h
  simpa [hent, he] using hle

theorem minEntry_eq_none {test : CacheEntry β → Bool} {key : CacheEntry β → Nat}
    (h : s.minEntry test key = none) {i : Nat} {e : CacheEntry β} (he : s.entries[i]? = some e) :
    test e = false := by
  have hnil : indices test s.entries = [] := argmin_eq_none.mp h
  cases htest : test e with
  | false => rfl
  | true =>
    have hmem := mem_indices.mpr ⟨e, he, htest⟩
    rw [hnil] at hmem
    cases hmem

/-- An entry that is reused holds nothing that is not on the disk. -/
theorem reusableEntry_eq_some {protect : Option (Nat × Nat)}
    (h : s.reusableEntry protect = some index) :
    ∃ entry, s.entries[index]? = some entry ∧ entry.state ≠ .dirty := by
  unfold reusableEntry at h
  split at h
  · rename_i i hvac
    obtain rfl := Option.some.inj h
    obtain ⟨entry, hent, hst⟩ := exists_of_findIdx? hvac
    refine ⟨entry, hent, ?_⟩
    rw [of_decide_eq_true hst]
    exact nofun
  · obtain ⟨entry, hent, htest, -⟩ := minEntry_eq_some h
    refine ⟨entry, hent, ?_⟩
    rw [of_decide_eq_true (Bool.and_eq_true_iff.mp htest).1]
    exact nofun

/-- A block that has no entry finds one, unless all are dirty. -/
theorem reusableEntry_isSome (h : s.Indexed) (habsent : s.lookupEntry block = none)
    (hroom : s.entries.countP CacheEntry.isDirty < s.entries.length) :
    ∃ index, s.reusableEntry (some (block, block + 1)) = some index := by
  cases hreusable : s.reusableEntry (some (block, block + 1)) with
  | some index => exact ⟨index, rfl⟩
  | none =>
    unfold reusableEntry at hreusable
    split at hreusable
    · cases hreusable
    rename_i hvac
    refine absurd (countP_eq_length.mpr fun entry hmem => ?_) (Nat.ne_of_lt hroom)
    obtain ⟨i, hent⟩ := mem_iff_getElem?.mp hmem
    have hused : entry.isVacant = false := findIdx?_eq_none_iff.mp hvac entry hmem
    have hkept := minEntry_eq_none hreusable hent
    cases hst : entry.state with
    | vacant => simp [isVacant, hst] at hused
    | dirty => simp [isDirty, hst]
    | clean =>
      have hblock : entry.block = block := by
        simp [isClean, hst] at hkept
        omega
      have hfound := h.lookupEntry_eq_some_iff.mpr ⟨entry, hent, by rw [hst]; decide, hblock⟩
      cases habsent.symm.trans hfound

theorem Sane.vacate (h : s.Sane content origin) (hent : s.entries[index]? = some entry) :
    ({ s.ledger content with residence := s.vacated entry } : Ledger β).Sound origin := by
  unfold vacated
  split
  · rename_i hclean
    have hst : entry.state = .clean := of_decide_eq_true hclean
    have hresid : (s.ledger content).residence entry.block = .clean entry.data :=
      (h.consistent.indexed.residence_entry hent (by rw [hst]; exact nofun)).trans
        (residenceOf_clean hst)
    exact h.sound.drop hresid
  · exact h.sound

theorem vacated_absent (entry : CacheEntry β) (h : s.residence block = .absent) :
    s.vacated entry block = .absent := by
  unfold vacated
  split
  · by_cases heq : block = entry.block
    · rw [heq, update_self]
    · rw [update_of_ne heq, h]
  · exact h

theorem Sane.admitClean (h : s.Sane content origin) (hblock : block < wordMax) :
    (s.admitClean block (content s.inner block)).2.Sane content origin ∧
      (s.admitClean block (content s.inner block)).2.inner = s.inner ∧
      (s.admitClean block (content s.inner block)).2.events = s.events := by
  unfold WriteBackDisk.admitClean
  cases hlook : s.lookupEntry block with
  | some index => exact ⟨h, rfl, rfl⟩
  | none =>
    cases hreusable : s.reusableEntry none with
    | none => exact ⟨h, rfl, rfl⟩
    | some index =>
      obtain ⟨entry, hent, hfree⟩ := reusableEntry_eq_some hreusable
      have h1 : s.nextAccess.2.Sane content origin :=
        h.steer s.failure s.quiesced s.asyncWritebackEnabled (saturatingAdd s.accessClock 1)
      obtain ⟨s1, s2, hprepare, hmodify, heq, hindexed, hresid⟩ :=
        h1.consistent.indexed.place block hent hfree hlook (f := fun entry => { entry with
            data := content s.inner block
            state := .clean
            firstSequence := 0
            lastSequence := 0
            lastUsed := s.nextAccess.1 }) nofun rfl
      simp only [hprepare, hmodify]
      refine ⟨?_, by rw [heq]; rfl, by rw [heq]; rfl⟩
      refine h1.reenter ?_ hindexed ?_ ?_ ?_ (by rw [heq]) (by rw [heq]) ?_
      · rw [heq]
        exact ⟨rfl, rfl, rfl, rfl, rfl, rfl, rfl⟩
      · rw [heq]
        exact length_set
      · rw [heq]
        exact h1.consistent.bounded_set index hblock
      · have hcnt := countP_set_add (p := isDirty) hent { entry with
            block := block
            data := content s.inner block
            state := .clean
            firstSequence := 0
            lastSequence := 0
            lastUsed := s.nextAccess.1 }
        simp only [isDirty, hfree] at hcnt
        rw [heq]
        exact h.consistent.dirtyCount.trans hcnt.symm
      · rw [hresid]
        have hvacated := h1.vacate hent
        exact hvacated.fill (vacated_absent entry (residence_of_lookup_none hlook))

/-! ## Accepting a block -/

/-- The other blocks may lose an entry that was clean. -/
def Displaces (block : Nat) (s s' : WriteBackDisk δ β) : Prop :=
  ∀ block' ≠ block, s'.residence block' = s.residence block' ∨
    s'.residence block' = .absent ∧ ∃ data, s.residence block' = .clean data

def dirtyAt (s : WriteBackDisk δ β) (block : Nat) : Bool :=
  match s.residence block with
  | .dirty _ _ _ => true
  | _ => false

/-- What accepting a block does. -/
structure Accepts (content : δ → Nat → β) (origin : Nat → β) (block : Nat) (data : β)
    (s s' : WriteBackDisk δ β) : Prop where
  sane : s'.Sane content origin
  accepted : accepted s'.events = accepted s.events ++ [(block, data)]
  displaces : Displaces block s s'
  dirty : s'.dirtyAt block = true
  count : s'.entries.countP CacheEntry.isDirty + (if s.dirtyAt block then 1 else 0) =
    s.entries.countP CacheEntry.isDirty + 1
  length : s'.entries.length = s.entries.length
  pending : s'.pending = s.pending
  requested : s'.requestedSequence = s.requestedSequence

theorem dirtyAt_eq_true :
    s.dirtyAt block = true ↔ ∃ data first last, s.residence block = .dirty data first last := by
  unfold dirtyAt
  cases s.residence block with
  | absent => simp
  | clean data => simp
  | dirty data first last => simp

section

variable (h : s.Sane content origin) (hopen : ∀ old first last,
  s.residence block = .dirty old first last → s.pending = [] ∨ s.requestedSequence < first)
include h hopen

theorem Sane.accepts (hq : SameQueue s s') (hindexed : s'.Indexed) {data : β}
    {entry' : CacheEntry β} (hent : s.entries[index]? = some entry)
    (hents : s'.entries = s.entries.set index entry') (hbnd : entry'.block < wordMax)
    (hdirty : entry'.isDirty = true)
    (hcnt : s'.dirtyCount = if entry.isDirty then s.dirtyCount else s.dirtyCount + 1)
    (hsame : entry.isDirty = s.dirtyAt block) (hwrite : s'.writeSequence = s.writeSequence + 1)
    (hevs : s'.events = s.events) {residence : Nat → Residence β}
    (hbef : ({ s.ledger content with residence := residence } : Ledger β).Sound origin)
    (hblock : residence block = s.residence block)
    (hothers : ∀ block' ≠ block, residence block' = s.residence block' ∨
      residence block' = .absent ∧ ∃ data, s.residence block' = .clean data)
    (hafter : s'.residence =
      (({ s.ledger content with residence := residence } : Ledger β).accept block data).residence) :
    Accepts content origin block data s
      (s'.record (.accepted (s.writeSequence + 1) block data)) := by
  have hq' : SameQueue s (s'.record (.accepted (s.writeSequence + 1) block data)) := { hq with }
  have hlen : s'.entries.length = s.entries.length := by rw [hents, length_set]
  have hcnts := countP_set_add (p := isDirty) hent entry'
  rw [← hents, if_pos hdirty] at hcnts
  have hrecord : (s'.record (.accepted (s.writeSequence + 1) block data)).events =
      s.events ++ [.accepted (s.writeSequence + 1) block data] := by
    rw [← hevs]
    rfl
  have hresid : (s'.record (.accepted (s.writeSequence + 1) block data)).residence =
      s'.residence := residence_of_eq rfl rfl rfl
  refine ⟨h.file hq' (hindexed.of_eq rfl rfl rfl) hlen ?_ ?_ ?_ hrecord hbef
      (hresid.trans hafter) ?_, ?_, ?_, ?_, ?_, hlen, hq'.pending, hq'.requestedSequence⟩
  · change ∀ e ∈ s'.entries, e.block < wordMax
    rw [hents]
    exact h.consistent.bounded_set index hbnd
  · have hold := h.consistent.dirtyCount
    change s'.dirtyCount = s'.entries.countP isDirty
    rw [hcnt]
    split <;> rename_i hd <;> simp only [hd] at hcnts <;> simp at hcnts <;> omega
  · exact hwrite
  · rw [hblock]
    exact hopen
  · rw [hrecord]
    exact accepted_append ..
  · intro block' hne
    rw [hresid, hafter, Ledger.residence_accept_of_ne hne]
    exact hothers block' hne
  · rw [dirtyAt_eq_true, hresid, hafter]
    exact ⟨data, _, _, Ledger.dirty_accept_self _ block data⟩
  · change s'.entries.countP isDirty + _ = _
    rw [← hsame]
    exact hcnts

theorem wp_acceptBlock (hbnd : block < wordMax) (data : β)
    (hroom : s.dirtyAt block = false → s.entries.countP CacheEntry.isDirty < s.entries.length) :
    wp (acceptBlock block data (s.writeSequence + 1))
      (fun _ s' => Accepts content origin block data s
        (s'.record (.accepted (s.writeSequence + 1) block data)))
      (fun _ _ => False) { s with writeSequence := s.writeSequence + 1 } := by
  have hc := h.consistent
  unfold acceptBlock nextAccess
  refine wp_get ?_
  refine wp_set_bind ?_
  generalize saturatingAdd _ 1 = access
  set t : WriteBackDisk δ β :=
    { s with writeSequence := s.writeSequence + 1, accessClock := access }
  have htIndexed : t.Indexed := hc.indexed.of_eq rfl rfl rfl
  have htResid : t.residence = s.residence := residence_of_eq rfl rfl rfl
  rcases htIndexed.lookup_cases block with ⟨hlook, hnone⟩ |
    ⟨index, entry, hlook, hent, hused, rfl, hresid⟩
  · -- an entry that is not dirty is given to the block
    rw [htResid] at hnone
    have hclean : s.dirtyAt block = false := by
      unfold dirtyAt
      rw [hnone]
    obtain ⟨index, hreusable⟩ := reusableEntry_isSome htIndexed hlook (hroom hclean)
    obtain ⟨entry, hent, hfree⟩ := reusableEntry_eq_some hreusable
    obtain ⟨s1, s2, hprepare, hmodify, heq, hindexed, hresid⟩ :=
      htIndexed.place block hent hfree hlook
        (f := CacheEntry.refill data (s.writeSequence + 1) access) nofun rfl
    simp only [hlook, hreusable, hprepare]
    refine wp_set ?_
    have hdirtyCnt : s1.dirtyCount = t.dirtyCount := by
      rw [show s1.dirtyCount = s2.dirtyCount by rw [← hmodify]; rfl, heq]
    have hrefill : s1.refill index data (s.writeSequence + 1) access =
        { s2 with dirtyCount := t.dirtyCount + 1 } := by
      unfold refill
      rw [hmodify, hdirtyCnt]
    have hnotDirty : entry.isDirty = false := by simpa [isDirty] using hfree
    have hvacated : t.vacated entry = s.vacated entry := by
      unfold vacated
      rw [htResid]
    have hindexed' : (s1.refill index data (s.writeSequence + 1) access).Indexed := by
      rw [hrefill]
      exact hindexed.of_eq rfl rfl rfl
    have hresid' : (s1.refill index data (s.writeSequence + 1) access).residence =
        s2.residence := by
      rw [hrefill]
      exact residence_of_eq rfl rfl rfl
    refine h.accepts hopen ?_ hindexed' hent (by rw [hrefill, heq]) hbnd rfl ?_ ?_ ?_ ?_
      (h.vacate hent) ?_ (fun block' hne => ?_) ?_
    · rw [hrefill, heq]
      exact ⟨rfl, rfl, rfl, rfl, rfl, rfl, rfl⟩
    · rw [hrefill, hnotDirty]
      rfl
    · rw [hnotDirty, hclean]
    · rw [hrefill, heq]
    · rw [hrefill, heq]
    · rw [hnone]
      exact vacated_absent entry hnone
    · unfold vacated
      split
      · rename_i hisClean
        by_cases heq' : block' = entry.block
        · subst heq'
          refine .inr ⟨update_self .., entry.data, ?_⟩
          have hst : entry.state = .clean := of_decide_eq_true hisClean
          rw [hc.indexed.residence_entry hent (by rw [hst]; exact nofun)]
          exact residenceOf_clean hst
        · exact .inl (update_of_ne heq' _ _)
      · exact .inl rfl
    · have hfirst :
          ({ s.ledger content with residence := s.vacated entry } : Ledger β).firstOf block =
          s.writeSequence + 1 := by
        unfold Ledger.firstOf
        rw [show ({ s.ledger content with residence := s.vacated entry } :
          Ledger β).residence block =
          .absent from vacated_absent entry hnone, hc.writeSequence]
        rfl
      rw [hresid', hresid, hvacated]
      unfold Ledger.accept
      rw [hfirst, residenceOf_dirty rfl, hc.writeSequence]
      rfl
  · -- the block has an entry
    simp only [hlook]
    refine wp_set ?_
    let entry' := entry.overwrite data (s.writeSequence + 1) access
    have hents : (t.overwrite index data (s.writeSequence + 1) access).entries =
        s.entries.set index entry' := modify_eq_set hent _
    have hblock : entry'.block = entry.block := by
      unfold entry' CacheEntry.overwrite
      split <;> rfl
    have hst : entry'.state = .dirty := by
      unfold entry' CacheEntry.overwrite
      split
      · rename_i hdirty
        exact of_decide_eq_true hdirty
      · rfl
    have hused' : entry'.state ≠ .vacant := by
      rw [hst]
      exact nofun
    have hindexed' := (hc.indexed.set hent hused hused' hblock).of_eq hents rfl rfl
    have hresid' : _ = ({ s with entries := s.entries.set index entry' } :
        WriteBackDisk δ β).residence := residence_of_eq hents rfl rfl
    have hq : SameQueue s (t.overwrite index data (s.writeSequence + 1) access) :=
      ⟨rfl, rfl, rfl, rfl, rfl, rfl, rfl⟩
    rw [htResid] at hresid
    refine h.accepts hopen hq hindexed' hent hents (hblock ▸ hbnd)
      (decide_eq_true hst) ?_ ?_ rfl rfl h.sound rfl (fun block' _ => .inl rfl) ?_
    · change (if (t.entries[index]?).any isDirty then _ else _) = _
      rw [hent]
      rfl
    · unfold dirtyAt isDirty
      rw [hresid]
      unfold residenceOf
      cases entry.state <;> rfl
    · rw [hresid', hc.indexed.residence_set hent hused hused' hblock, residenceOf_dirty hst]
      have hfirst : (s.ledger content).firstOf entry.block = entry'.firstSequence := by
        unfold entry' Ledger.firstOf CacheEntry.overwrite CacheEntry.isDirty
        rw [show (s.ledger content).residence entry.block = _ from hresid, hc.writeSequence]
        unfold residenceOf
        cases entry.state <;> rfl
      have hlast : entry'.lastSequence = (accepted s.events).length + 1 := by
        rw [← hc.writeSequence]
        rfl
      rw [← hfirst, hlast]
      rfl

end

end WriteBackDisk

end Ginkgo.Kernel.Writeback
