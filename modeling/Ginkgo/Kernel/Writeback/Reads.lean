import Ginkgo.Kernel.Writeback.Writes
import Mathlib.Data.List.TakeWhile

/-!
# Reading through the cache

A block that has an entry is read from it, a run of blocks that have none from the disk below,
which may bring blocks into the cache that were not asked for.  Either way a block is what its
last accepted write made it.
-/

namespace Ginkgo.Kernel.Writeback.WriteBackDisk

open Ginkgo.Lib List

variable {δ β : Type} {content : δ → Nat → β} {origin : Nat → β} {s s' : WriteBackDisk δ β}
  {block : Nat}

/-- A read does not change what is recorded. -/
def ReadOk (content : δ → Nat → β) (origin : Nat → β) (s s' : WriteBackDisk δ β) : Prop :=
  s'.Sane content origin ∧ s'.events = s.events

/-- What the accepted writes make of a range of blocks. -/
def latest (origin : Nat → β) (s : WriteBackDisk δ β) (block count : Nat) : List β :=
  (range' block count).map (replay origin (accepted s.events))

theorem latest_of_events (h : s'.events = s.events) (block count : Nat) :
    s'.latest origin block count = s.latest origin block count := by
  unfold latest
  rw [h]

theorem latest_add (s : WriteBackDisk δ β) (block count count' : Nat) :
    s.latest origin block (count + count') =
      s.latest origin block count ++ s.latest origin (block + count) count' := by
  unfold latest
  rw [← range'_append_1, map_append]

/-- What a read of the block returns. -/
def dataAt (content : δ → Nat → β) (s : WriteBackDisk δ β) (block : Nat) : β :=
  match s.residence block with
  | .absent => content s.inner block
  | .clean data | .dirty data _ _ => data

section

variable (h : s.Sane content origin)
include h

theorem Sane.dataAt_eq (block : Nat) :
    s.dataAt content block = replay origin (accepted s.events) block := by
  unfold dataAt
  split
  · rename_i habsent
    refine h.sound.backed block fun data first last hdirty => ?_
    exact nomatch habsent.symm.trans hdirty
  · rename_i data hclean
    exact h.sound.clean block data hclean
  · rename_i data first last hdirty
    exact h.sound.dirty block data first last hdirty

theorem Sane.data_eq {i : Nat} {entry : CacheEntry β}
    (hent : s.entries[i]? = some entry) (hused : entry.state ≠ .vacant) :
    entry.data = replay origin (accepted s.events) entry.block := by
  have hresid := h.consistent.indexed.residence_entry hent hused
  cases hst : entry.state with
  | vacant => exact absurd hst hused
  | clean =>
    rw [residenceOf_clean hst] at hresid
    exact h.sound.clean _ _ hresid
  | dirty =>
    rw [residenceOf_dirty hst] at hresid
    exact h.sound.dirty _ _ _ _ hresid

theorem wp_readHit {index : Nat} (hlook : s.lookupEntry block = some index) : wp (readHit index)
      (fun data s' => data = replay origin (accepted s.events) block ∧ ReadOk content origin s s')
      (fun _ s' => ReadOk content origin s s') s := by
  obtain ⟨entry, hent, hused, rfl⟩ := h.consistent.indexed.lookupEntry_eq_some_iff.mp hlook
  have h1 : s.nextAccess.2.Sane content origin :=
    h.steer s.failure s.quiesced s.asyncWritebackEnabled (saturatingAdd s.accessClock 1)
  have hent1 : s.nextAccess.2.entries[index]? = some entry := hent
  have htouch : (s.nextAccess.2.modifyEntry index
      ({ · with lastUsed := s.nextAccess.1 })).Sane content origin := by
    unfold modifyEntry
    rw [modify_eq_set hent1]
    exact h1.touch hent1 hused rfl rfl rfl
  refine wp_get (wp_set_bind ?_)
  simp only [hent]
  refine wp_ite (fun hvac => absurd (of_decide_eq_true hvac) hused) fun _ => ?_
  exact wp_set_bind (wp_pure ⟨h.data_eq hent hused, htouch, rfl⟩)

/-! ## Misses -/

theorem Sane.admitAll (blocks : List (Nat × β))
    (hblocks : ∀ read ∈ blocks, read.1 < wordMax ∧ read.2 = content s.inner read.1) :
    ReadOk content origin s (s.admitAll blocks) := by
  induction blocks generalizing s with
  | nil => exact ⟨h, rfl⟩
  | cons read blocks ih =>
    obtain ⟨block, data⟩ := read
    obtain ⟨hlt, rfl⟩ : block < wordMax ∧ data = content s.inner block :=
      hblocks _ mem_cons_self
    obtain ⟨hsane, hinner, hevs⟩ := h.admitClean hlt
    obtain ⟨hrest, hrest'⟩ := ih hsane fun read hread => by
      rw [hinner]
      exact hblocks read (mem_cons_of_mem _ hread)
    exact ⟨hrest, hrest'.trans hevs⟩

theorem Sane.disk_eq (habsent : s.lookupEntry block = none) :
    content s.inner block = replay origin (accepted s.events) block := by
  refine h.sound.backed block fun data first last hdirty => ?_
  exact nomatch (residence_of_lookup_none habsent).symm.trans hdirty

end

theorem readAheadCount_le (s : WriteBackDisk δ β) (target : Nat) (bytes : UInt64)
    (hmore : 1 < s.readAheadCount target bytes.toNat) :
    target + s.readAheadCount target bytes.toNat ≤ wordMax := by
  have hbytes := bytes.toNat_lt
  unfold readAheadCount at hmore ⊢
  unfold wordMax
  simp only [writebackBlockSize] at hmore ⊢
  omega

theorem mem_reads {f : Nat → β} {target count : Nat} {read : Nat × β}
    (h : read ∈ (range' target count).zip ((range' target count).map f)) :
    read.1 < target + count ∧ read.2 = f read.1 := by
  have hzip : (range' target count).zip ((range' target count).map f) =
      (range' target count).map fun b => (b, f b) := by
    simpa using zip_map' (f := id)
  rw [hzip] at h
  obtain ⟨b, hb, rfl⟩ := mem_map.mp h
  exact ⟨(mem_range'_1.mp hb).2, rfl⟩

theorem runEnd_spec {offset blockCount : Nat} (hlt : offset < blockCount)
    (hfirst : s.lookupEntry (block + offset) = none) :
    offset < s.runEnd block offset blockCount ∧ s.runEnd block offset blockCount ≤ blockCount ∧
      ∀ b, block + offset ≤ b → b < block + s.runEnd block offset blockCount →
        s.lookupEntry b = none := by
  unfold runEnd
  generalize hrun : (range' (offset + 1) (blockCount - (offset + 1))).takeWhile
    (fun offset => (s.lookupEntry (block + offset)).isNone) = run
  have hlen : run.length ≤ blockCount - (offset + 1) := by
    have hle := IsPrefix.length_le <| takeWhile_prefix
      (l := range' (offset + 1) (blockCount - (offset + 1)))
      fun offset => (s.lookupEntry (block + offset)).isNone
    rwa [hrun, length_range'] at hle
  refine ⟨by omega, by omega, fun b hle hlt' => ?_⟩
  by_cases heq : b = block + offset
  · rw [heq]
    exact hfirst
  have hmem : b - block ∈ run := by
    have hprefix := takeWhile_prefix (l := range' (offset + 1) (blockCount - (offset + 1)))
      fun offset => (s.lookupEntry (block + offset)).isNone
    rw [hrun] at hprefix
    rw [prefix_iff_eq_take.mp hprefix, mem_take_iff_getElem]
    refine ⟨b - block - (offset + 1), ?_, ?_⟩
    · rw [length_range']
      omega
    · rw [getElem_range']
      omega
  rw [← hrun] at hmem
  have hnone := mem_takeWhile_imp hmem
  rw [show b = block + (b - block) by omega]
  exact Option.isNone_iff_eq_none.mp hnone

variable [Disk δ β]

variable (hdisk : Honest δ β content) (h : s.Sane content origin)
include hdisk h

theorem wp_readBacking (target count : Nat) : wp (readBacking target count)
      (fun blocks s' => blocks = (range' target count).map (content s.inner) ∧
        content s'.inner = content s.inner ∧ ReadOk content origin s s')
      (fun _ s' => ReadOk content origin s s') s := by
  refine wp_bind (wp_onInner fun result inner hread => wp_bind ?_)
  have hinner : content inner = content s.inner := by
    have hkeeps := hdisk.read_keeps target count s.inner
    rw [hread] at hkeeps
    exact hkeeps
  have hdone : ReadOk content origin s { s with inner := inner } := ⟨h.keepInner hinner, rfl⟩
  cases result with
  | error errno => exact wp_throw hdone
  | ok read =>
    obtain ⟨bytes, blocks⟩ := read
    refine wp_pure (wp_ite (fun _ => wp_throw hdone) fun hbytes => wp_pure ⟨?_, hinner, hdone⟩)
    rw [Decidable.not_not.mp hbytes] at hread
    exact hdisk.read target count s.inner blocks inner hread

theorem wp_readAhead (target count : Nat) : wp (readAhead target count)
      (fun ahead s' => ReadOk content origin s s' ∧ content s'.inner = content s.inner ∧
        (1 < ahead → count = 1 ∧ target + ahead ≤ wordMax))
      (fun _ s' => ReadOk content origin s s') s := by
  refine wp_ite (fun _ => wp_pure ⟨⟨h, rfl⟩, rfl, nofun⟩) fun hone => ?_
  refine wp_bind (wp_onInner fun result inner hsize => wp_bind ?_)
  have hinner : content inner = content s.inner := by
    have hkeeps := hdisk.size_keeps s.inner
    rw [hsize] at hkeeps
    exact hkeeps
  have hdone : ReadOk content origin s { s with inner := inner } := ⟨h.keepInner hinner, rfl⟩
  cases result with
  | error errno => exact wp_throw hdone
  | ok bytes =>
    exact wp_pure (wp_get (wp_pure ⟨hdone, hinner, fun hmore =>
      ⟨Decidable.not_not.mp hone, readAheadCount_le _ target bytes hmore⟩⟩))

theorem wp_readMissing {target count : Nat} (hrange : target + count ≤ wordMax)
    (habsent : ∀ b, target ≤ b → b < target + count → s.lookupEntry b = none) :
    wp (readMissing target count)
      (fun blocks s' => blocks = s.latest origin target count ∧ ReadOk content origin s s')
      (fun _ s' => ReadOk content origin s s') s := by
  have hcont : (range' target count).map (content s.inner) = s.latest origin target count := by
    refine map_congr_left fun b hb => ?_
    have hmem := mem_range'_1.mp hb
    exact h.disk_eq (habsent b hmem.1 hmem.2)
  refine wp_seq (wp_readAhead hdisk h target count) fun ahead t hahead => ?_
  obtain ⟨⟨ht, hevs⟩, hinner, hbnd⟩ := hahead
  -- what comes from the disk may be admitted
  have hadmit : ∀ {count' : Nat} {blocks : List β} {t' : WriteBackDisk δ β}
      {reads : List (Nat × β)}, target + count' ≤ wordMax →
      blocks = (range' target count').map (content t.inner) →
      content t'.inner = content t.inner → ReadOk content origin t t' →
      reads ⊆ (range' target count').zip blocks →
      ReadOk content origin s (t'.admitAll reads) := by
    rintro count' _ t' reads hle rfl hinner' ⟨ht', hevs'⟩ hsubset
    obtain ⟨hsane, hevs''⟩ := ht'.admitAll reads fun read hread => by
      obtain ⟨hlt, hdata⟩ := mem_reads (hsubset hread)
      rw [hinner']
      exact ⟨by omega, hdata⟩
    exact ⟨hsane, hevs''.trans (hevs'.trans hevs)⟩
  have herr : ∀ (_ : Errno) t', ReadOk content origin t t' →
      ReadOk content origin s t' := fun _ t' ht' => ⟨ht'.1, ht'.2.trans hevs⟩
  refine wp_ite (fun hmore => ?_) fun _ => ?_
  · obtain ⟨rfl, hle⟩ := hbnd hmore
    refine wp_bind (wp_mono (wp_readBacking hdisk ht target ahead) (fun blocks t' hread => ?_) herr)
    obtain ⟨hblocks, hinner', hread⟩ := hread
    refine wp_modify_bind (wp_pure ⟨?_, hadmit hle hblocks hinner' hread ?_⟩)
    · rw [hblocks, hinner, ← hcont]
      obtain ⟨more, rfl⟩ : ∃ more, ahead = more + 1 := ⟨ahead - 1, by omega⟩
      rfl
    · intro read hread
      rcases mem_append.mp hread with hread | hread
      · exact mem_of_mem_drop hread
      · exact mem_of_mem_take hread
  · refine wp_bind (wp_mono (wp_readBacking hdisk ht target count) (fun blocks t' hread => ?_) herr)
    obtain ⟨hblocks, hinner', hread⟩ := hread
    refine wp_modify_bind (wp_pure ⟨?_, hadmit hrange hblocks hinner' hread fun _ h => h⟩)
    rw [hblocks, hinner, hcont]

theorem wp_readBlocks {blockCount room offset : Nat} (hrange : block + blockCount ≤ wordMax)
    (hroom : blockCount ≤ offset + room) :
    wp (readBlocks block blockCount room offset)
      (fun blocks s' => blocks = s.latest origin (block + offset) (blockCount - offset) ∧
        ReadOk content origin s s') (fun _ s' => ReadOk content origin s s') s := by
  induction room generalizing s offset with
  | zero =>
    rw [show blockCount - offset = 0 by omega]
    exact wp_pure ⟨rfl, h, rfl⟩
  | succ room ih =>
    refine wp_ite (fun hlt => ?_) fun hge => ?_
    · -- what the rest of the range adds to the blocks from here to `next`
      have hrest : ∀ {t : WriteBackDisk δ β} {blocks : List β} {next : Nat}, offset < next →
          next ≤ blockCount → blocks = s.latest origin (block + offset) (next - offset) →
          ReadOk content origin s t →
          wp (do return blocks ++ (← readBlocks block blockCount room next))
            (fun blocks s' => blocks = s.latest origin (block + offset) (blockCount - offset) ∧
              ReadOk content origin s s') (fun _ s' => ReadOk content origin s s') t := by
        rintro t _ next hnext hle rfl ⟨ht, hevs⟩
        refine wp_bind (wp_mono (ih ht (by omega)) ?_ ?_)
        · rintro blocks' t' ⟨rfl, ht', hevs'⟩
          refine wp_pure ⟨?_, ht', hevs'.trans hevs⟩
          rw [latest_of_events hevs,
            show blockCount - offset = (next - offset) + (blockCount - next) by omega, latest_add,
            show block + offset + (next - offset) = block + next by omega]
        · exact fun _ t' ht' => ⟨ht'.1, ht'.2.trans hevs⟩
      refine wp_get ?_
      cases hlook : s.lookupEntry (block + offset) with
      | some index =>
        refine wp_seq (wp_readHit h hlook) fun data t hhit => ?_
        obtain ⟨hdata, ht⟩ := hhit
        have hone : [data] = s.latest origin (block + offset) (offset + 1 - offset) := by
          rw [Nat.add_sub_cancel_left, hdata]
          rfl
        exact hrest (Nat.lt_succ_self offset) hlt hone ht
      | none =>
        obtain ⟨hnext, hle, habsent⟩ := runEnd_spec hlt hlook
        refine wp_seq (wp_readMissing hdisk h (by omega) fun b hge hb => habsent b hge (by omega))
          fun blocks t hmiss => ?_
        exact hrest hnext hle hmiss.1 hmiss.2
    · rw [show blockCount - offset = 0 by omega]
      exact wp_pure ⟨rfl, h, rfl⟩

/-- A read that succeeds returns what the accepted writes make of the range. -/
theorem wp_readAt (block byteLen : Nat) :
    wp (readAt block byteLen) (fun read s' => read.1 = byteLen ∧ byteLen % writebackBlockSize = 0 ∧
        read.2 = s.latest origin block (byteLen / writebackBlockSize) ∧ ReadOk content origin s s')
      (fun _ s' => ReadOk content origin s s') s := by
  refine wp_bind (wp_validateTransfer (fun haligned hrange => ?_) fun _ => ⟨h, rfl⟩)
  refine wp_seq (wp_readBlocks hdisk h hrange (by omega)) fun blocks s' hread => ?_
  exact wp_pure ⟨rfl, haligned, hread⟩

end Ginkgo.Kernel.Writeback.WriteBackDisk
