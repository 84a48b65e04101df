import Ginkgo.Kernel.Writeback.Steps

/-!
# Accepting a transfer

The preflight protects the whole range from eviction, the loop that accepts only the block
it is at.  The loop still cannot run out of entries: the dirty entries and the blocks of the
range that are not dirty are together no more than there are entries, and accepting a block
keeps it so.
-/

namespace Ginkgo.Kernel.Writeback.WriteBackDisk

open Ginkgo.Lib List Option CacheEntry

variable {δ β : Type} {content : δ → Nat → β} {origin : Nat → β} {s s' : WriteBackDisk δ β}
  {block count : Nat}

/-- The blocks of a range that are not dirty. -/
def undirtied (s : WriteBackDisk δ β) (block count : Nat) : Nat :=
  (range' block count).countP fun b => !s.dirtyAt b

def missing (s : WriteBackDisk δ β) (block count : Nat) : Nat :=
  (range' block count).countP fun b => (s.lookupEntry b).isNone

/-- A pending ticket forbids no write to the range. -/
def Unsealed (s : WriteBackDisk δ β) (block count : Nat) : Prop :=
  ∀ b, block ≤ b → b < block + count → ∀ data first last, s.residence b = .dirty data first last →
    s.pending = [] ∨ s.requestedSequence < first

/-- Every block of the range can be accepted. -/
structure Admits (s : WriteBackDisk δ β) (block count : Nat) : Prop where
  room : s.entries.countP CacheEntry.isDirty + s.undirtied block count ≤ s.entries.length
  unsealed : s.Unsealed block count

def cleanAt (s : WriteBackDisk δ β) (block : Nat) : Bool :=
  match s.residence block with
  | .clean _ => true
  | _ => false

theorem Indexed.countP_cleanAt_le (h : s.Indexed) (block count : Nat) :
    (range' block count).countP s.cleanAt ≤ s.entries.countP fun entry =>
      entry.isClean && (block ≤ entry.block && entry.block < block + count) := by
  rw [countP_eq_length_filter, countP_eq_length_filter]
  have hsubset : (range' block count).filter s.cleanAt ⊆
      (s.entries.filter fun entry => entry.isClean &&
        (block ≤ entry.block && entry.block < block + count)).map (·.block) := by
    intro b hb
    obtain ⟨hrange, hclean⟩ := mem_filter.mp hb
    have hrange := mem_range'_1.mp hrange
    unfold cleanAt at hclean
    rcases h.lookup_cases b with ⟨-, hnone⟩ | ⟨i, entry, -, hent, hused, rfl, hresid⟩
    · rw [hnone] at hclean
      cases hclean
    refine mem_map.mpr ⟨entry, mem_filter.mpr ⟨mem_of_getElem? hent, ?_⟩, rfl⟩
    rw [hresid] at hclean
    unfold residenceOf at hclean
    cases hst : entry.state with
    | vacant => exact absurd hst hused
    | dirty => simp [hst] at hclean
    | clean => simp [isClean, hst, hrange]
  have hnodup := (nodup_range' (s := block) (n := count)).filter s.cleanAt
  have hle := (subperm_of_subset hnodup hsubset).length_le
  rwa [length_map] at hle

theorem Indexed.undirtied_le (h : s.Indexed) (block count : Nat) : s.undirtied block count =
      s.missing block count + (range' block count).countP s.cleanAt := by
  unfold undirtied missing
  rw [← countP_or]
  · refine countP_congr fun b _ => ?_
    unfold dirtyAt cleanAt
    rcases h.lookup_cases b with ⟨hlook, hnone⟩ |
      ⟨i, entry, hlook, -, hused, -, hresid⟩
    · rw [hlook, hnone]
      rfl
    rw [hlook, hresid]
    unfold residenceOf
    cases hst : entry.state with
    | vacant => exact absurd hst hused
    | clean => rfl
    | dirty => rfl
  · intro b _ hnone
    unfold cleanAt
    rw [residence_of_lookup_none (isNone_iff_eq_none.mp hnone)]

/-- Every entry is dirty, can be reused, or is clean and in the range. -/
theorem countP_entries_le (s : WriteBackDisk δ β) (block count : Nat) :
    s.entries.countP CacheEntry.isDirty + (s.reusableCount block (block + count) +
      s.entries.countP fun entry =>
        entry.isClean && (block ≤ entry.block && entry.block < block + count)) ≤
      s.entries.length := by
  unfold reusableCount
  rw [← countP_or, ← countP_or]
  · exact countP_le_length
  · intro entry _ hdirty
    have hst : entry.state = .dirty := of_decide_eq_true hdirty
    simp [isVacant, isClean, hst]
  · intro entry _ hreusable
    cases hst : entry.state with
    | vacant | dirty => simp [isClean, hst]
    | clean =>
      simp only [isVacant, isClean, hst] at hreusable ⊢
      exact (Bool.not_eq_true' _).mp hreusable

theorem Indexed.room_of_missing (h : s.Indexed)
    (hneeded : s.missing block count ≤ s.reusableCount block (block + count)) :
    s.entries.countP CacheEntry.isDirty + s.undirtied block count ≤ s.entries.length := by
  have hundirtied := h.undirtied_le block count
  have hclean := h.countP_cleanAt_le block count
  have hents := s.countP_entries_le block count
  omega

theorem newEntries_eq_some (h : s.Indexed) {needed : Nat}
    (hneeded : s.newEntries block count = some needed) :
    needed = s.missing block count ∧ ∀ b, block ≤ b → b < block + count → ∀ data first last,
        s.residence b = .dirty data first last →
          s.flushTicketLen = 0 ∨ s.requestedSequence < first := by
  unfold newEntries at hneeded
  induction count generalizing needed with
  | zero =>
    refine ⟨(some.inj hneeded).symm, fun b hle hlt => ?_⟩
    omega
  | succ count ih =>
    rw [range_succ, foldlM_append] at hneeded
    obtain ⟨count', hprev, hlast⟩ := bind_eq_some_iff.mp hneeded
    obtain ⟨rfl, hopen⟩ := ih hprev
    have hmissing : s.missing block (count + 1) = s.missing block count +
        if (s.lookupEntry (block + count)).isNone then 1 else 0 := by
      unfold missing
      rw [range'_concat, countP_append, Nat.one_mul, countP_singleton]
    have hextend : (∀ data first last, s.residence (block + count) = .dirty data first last →
        s.flushTicketLen = 0 ∨ s.requestedSequence < first) →
        ∀ b, block ≤ b → b < block + (count + 1) → ∀ data first last,
          s.residence b = .dirty data first last →
            s.flushTicketLen = 0 ∨ s.requestedSequence < first := by
      intro hself b hle hlt
      by_cases heq : b = block + count
      · rw [heq]
        exact hself
      · exact hopen b hle (by omega)
    simp only [foldlM_cons] at hlast
    rcases h.lookup_cases (block + count) with ⟨hlook, hnone⟩ |
      ⟨i, entry, hlook, hent, hused, -, hresid⟩
    · rw [hmissing, hlook]
      simp only [hlook] at hlast
      refine ⟨(some.inj hlast).symm, hextend fun data first last hdirty => ?_⟩
      exact nomatch hnone.symm.trans hdirty
    · rw [hmissing, hlook]
      simp only [hlook, hent] at hlast
      split at hlast
      · cases hlast
      rename_i hsealed
      refine ⟨(some.inj hlast).symm, hextend fun data first last hdirty => ?_⟩
      rw [hresid] at hdirty
      unfold residenceOf at hdirty
      cases hst : entry.state with
      | vacant => exact absurd hst hused
      | clean => simp [hst] at hdirty
      | dirty =>
        simp only [hst, Residence.dirty.injEq] at hdirty
        simp only [isDirty, hst, decide_true, true_and] at hsealed
        omega

section

variable (h : Settles s s')
include h

theorem Settles.lookupEntry (block : Nat) : s'.lookupEntry block = s.lookupEntry block := by
  unfold WriteBackDisk.lookupEntry
  rw [path_eq h.mask (by rw [h.lookup]), h.lookup]

theorem Settles.missing (block count : Nat) : s'.missing block count = s.missing block count := by
  unfold WriteBackDisk.missing
  simp only [h.lookupEntry]

theorem Settles.residence (block : Nat) : s'.residence block = s.residence block ∨
      ∃ data first last, s.residence block = .dirty data first last ∧
        s'.residence block = .clean data := by
  unfold WriteBackDisk.residence
  rw [h.lookupEntry]
  cases s.lookupEntry block with
  | none => exact .inl rfl
  | some i =>
    rw [bind_some, bind_some]
    cases hent : s.entries[i]? with
    | none =>
      have hlen := h.entries.length_eq
      rw [getElem?_eq_none_iff] at hent
      rw [getElem?_eq_none_iff.mpr (by omega)]
      exact .inl rfl
    | some entry =>
      obtain ⟨entry', hent', hcleaned⟩ := forall₂_getElem? h.entries hent
      rw [hent']
      rcases hcleaned with rfl | ⟨hdirty, rfl⟩
      · exact .inl rfl
      · exact .inr ⟨_, _, _, residenceOf_dirty hdirty, residenceOf_clean rfl⟩

theorem Settles.unsealed (hunsealed : s.Unsealed block count) : s'.Unsealed block count := by
  intro b hle hlt data first last hdirty
  have hdirty' : s.residence b = .dirty data first last := by
    rcases h.residence b with heq | ⟨_, _, _, -, hclean⟩
    · rw [← heq]
      exact hdirty
    · exact nomatch hclean.symm.trans hdirty
  rw [h.requestedSequence]
  refine (hunsealed b hle hlt data first last hdirty').imp_left fun hnil => ?_
  have hsuffix := h.pending
  rw [hnil] at hsuffix
  exact suffix_nil.mp hsuffix

end

theorem Accepts.dirtyAt_of_ne {data : β} (h : Accepts content origin block data s s') {block' : Nat}
    (hne : block' ≠ block) : s'.dirtyAt block' = s.dirtyAt block' := by
  unfold dirtyAt
  rcases h.displaces block' hne with heq | ⟨habsent, data', hclean⟩
  · rw [heq]
  · rw [habsent, hclean]

/-- The range goes on being acceptable after its first block. -/
theorem Accepts.admits {data : β} (h : Accepts content origin block data s s')
    (hadmits : s.Admits block (count + 1)) : s'.Admits (block + 1) count := by
  refine ⟨?_, fun b hle hlt data' first last hdirty => ?_⟩
  · have hroom := hadmits.room
    have hcnt := h.count
    have hrest : s'.undirtied (block + 1) count = s.undirtied (block + 1) count := by
      refine countP_congr fun b hb => ?_
      have hrange := mem_range'_1.mp hb
      rw [h.dirtyAt_of_ne (by omega)]
    have hfirst : s.undirtied block (count + 1) = s.undirtied (block + 1) count +
        if !s.dirtyAt block then 1 else 0 := by
      unfold undirtied
      rw [range'_succ, countP_cons]
    rw [h.length]
    cases hdirty : s.dirtyAt block with
    | false =>
      simp only [hdirty, Bool.not_false, if_true] at hcnt hfirst
      omega
    | true =>
      simp only [hdirty, if_true] at hcnt hfirst
      omega
  · have hdirty' : s.residence b = .dirty data' first last := by
      rcases h.displaces b (by omega) with heq | ⟨habsent, -⟩
      · rw [← heq]
        exact hdirty
      · exact nomatch habsent.symm.trans hdirty
    rw [h.pending, h.requested]
    exact hadmits.unsealed b (by omega) (by omega) data' first last hdirty'

/-- The blocks are accepted in order, and what is dirty stays dirty. -/
theorem wp_acceptBlocks (h : s.Sane content origin) {blocks : List β}
    (hrange : block + blocks.length ≤ wordMax) (hadmits : s.Admits block blocks.length) :
    wp (acceptBlocks block blocks) (fun _ s' => s'.Sane content origin ∧ accepted s'.events =
        accepted s.events ++ (range' block blocks.length).zip blocks ∧
        ∀ b, s.dirtyAt b = true ∨ b ∈ range' block blocks.length → s'.dirtyAt b = true)
      (fun _ _ => False) s := by
  induction blocks generalizing s block with
  | nil => exact wp_pure ⟨h, (append_nil _).symm, fun _ => (Or.resolve_right · not_mem_nil)⟩
  | cons data blocks ih =>
    rw [length_cons] at hrange hadmits
    have hroom : s.dirtyAt block = false → s.entries.countP isDirty < s.entries.length := by
      intro hclean
      have hroom := hadmits.room
      unfold undirtied at hroom
      rw [range'_succ, countP_cons, hclean] at hroom
      simp only [Bool.not_false, if_true] at hroom
      omega
    refine wp_get (wp_set_bind (wp_bind ?_))
    refine wp_mono (wp_acceptBlock h (hadmits.unsealed block le_rfl (by omega)) (by omega) data
      hroom) (fun _ s1 haccs => ?_)
      fun _ _ hfalse => hfalse
    refine wp_mono (ih haccs.sane (by omega) (haccs.admits hadmits)) ?_ fun _ _ hfalse => hfalse
    rintro _ s2 ⟨h2, hrest, hdirty⟩
    refine ⟨h2, ?_, fun b hb => ?_⟩
    · rw [hrest, haccs.accepted, append_assoc]
      rfl
    · rw [length_cons, range'_succ, mem_cons] at hb
      by_cases hblock : b = block
      · exact hdirty b (.inl (hblock ▸ haccs.dirty))
      · rw [← haccs.dirtyAt_of_ne hblock] at hb
        exact hdirty b (hb.imp_right (Or.resolve_left · hblock))

theorem wp_validateTransfer {byteLen : Nat} {Q : Nat → WriteBackDisk δ β → Prop}
    {E : Errno → WriteBackDisk δ β → Prop}
    (hok : byteLen % writebackBlockSize = 0 → block + byteLen / writebackBlockSize ≤ wordMax →
      Q (byteLen / writebackBlockSize) s) (herr : ∀ errno, E errno s) :
    wp (validateTransfer block byteLen) Q E s := by
  refine wp_ite (fun _ => wp_throw (herr _)) fun haligned => ?_
  cases hadd : checkedAdd block (byteLen / writebackBlockSize) with
  | none => exact wp_throw (herr _)
  | some blockEnd => exact wp_pure (hok (by omega) (checkedAdd_some hadd).2)

theorem Buffer.byteLen_div (buffer : Buffer β) :
    buffer.byteLen / writebackBlockSize = buffer.blocks.length := by
  have hlt := buffer.rest.isLt
  unfold Buffer.byteLen
  unfold writebackBlockSize at hlt ⊢
  omega

variable [Disk δ β]

theorem wp_relievePressure (hdisk : Honest δ β content) (h : s.Sane content origin)
    (block blockEnd needed steps : Nat) :
    wp (relievePressure block blockEnd needed steps (s.reusableCount block blockEnd))
      (fun reusable s' => s'.Sane content origin ∧ Settles s s' ∧
        reusable = s'.reusableCount block blockEnd)
      (fun _ s' => s'.Sane content origin ∧ Settles s s') s := by
  induction steps generalizing s with
  | zero => exact wp_pure ⟨h, .refl s, rfl⟩
  | succ steps ih =>
    refine wp_ite (fun _ => wp_pure ⟨h, .refl s, rfl⟩) fun _ => ?_
    refine wp_seq (wp_writebackStep hdisk h) fun _ s1 hstep => ?_
    refine wp_get (wp_ite (fun _ => wp_throw hstep) fun _ => ?_)
    refine wp_mono (ih hstep.1) ?_ ?_
    · rintro reusable s2 ⟨h2, hsettles, heq⟩
      exact ⟨h2, hstep.2.trans hsettles, heq⟩
    · exact fun _ _ hrest => ⟨hrest.1, hstep.2.trans hrest.2⟩

theorem wp_preflightWrite (hdisk : Honest δ β content) (h : s.Sane content origin)
    (block count : Nat) :
    wp (preflightWrite block count)
      (fun _ s' => s'.Sane content origin ∧ Settles s s' ∧ s'.Admits block count)
      (fun _ s' => s'.Sane content origin ∧ Settles s s') s := by
  have hsame : s.Sane content origin ∧ Settles s s := ⟨h, .refl s⟩
  refine wp_ite (fun _ => wp_throw hsame) fun _ => ?_
  refine wp_ite (fun _ => wp_throw hsame) fun _ => ?_
  cases checkedAdd s.writeSequence count with
  | none => exact wp_throw hsame
  | some seq =>
    cases hneeded : s.newEntries block count with
    | none => exact wp_throw hsame
    | some needed =>
      obtain ⟨rfl, hopen⟩ := newEntries_eq_some h.consistent.indexed hneeded
      have hunsealed : s.Unsealed block count := by
        intro b hle hlt data first last hdirty
        refine (hopen b hle hlt data first last hdirty).imp_left fun hempty => ?_
        unfold pending
        rw [hempty]
        rfl
      refine wp_seq (wp_relievePressure hdisk h block (block + count) _ _)
        fun reusable s1 hrelieved => ?_
      obtain ⟨h1, hsettles, rfl⟩ := hrelieved
      refine wp_ite (fun _ => wp_throw ⟨h1, hsettles⟩) fun henough => wp_pure ?_
      refine ⟨h1, hsettles, ?_, hsettles.unsealed hunsealed⟩
      refine h1.consistent.indexed.room_of_missing ?_
      rw [hsettles.missing]
      exact Nat.not_lt.mp henough

/-- A write is accepted whole, or it leaves the cache as it was but for blocks that were
written back to make room. -/
theorem wp_writeAt (hdisk : Honest δ β content) (h : s.Sane content origin) (block : Nat)
    (buffer : Buffer β) :
    wp (writeAt block buffer) (fun bytes s' => s'.Sane content origin ∧ accepted s'.events =
        accepted s.events ++ (range' block buffer.blocks.length).zip buffer.blocks ∧
        bytes = buffer.byteLen ∧ ∀ b ∈ range' block buffer.blocks.length, s'.dirtyAt b = true)
      (fun _ s' => s'.Sane content origin ∧ Settles s s') s := by
  refine wp_bind (wp_validateTransfer (fun haligned hrange => ?_) fun _ => ⟨h, .refl s⟩)
  have hlen := buffer.byteLen_div
  rw [hlen] at hrange ⊢
  refine wp_ite (fun hempty => wp_pure ?_) fun _ => ?_
  · have hzero := Nat.eq_zero_of_dvd_of_div_eq_zero (Nat.dvd_of_mod_eq_zero haligned)
      (hlen.trans hempty)
    rw [length_eq_zero_iff.mp hempty]
    exact ⟨h, (append_nil _).symm, hzero.symm, forall_mem_nil _⟩
  refine wp_seq (wp_preflightWrite hdisk h block buffer.blocks.length) fun _ s1 hpreflight => ?_
  obtain ⟨h1, hsettles, hadmits⟩ := hpreflight
  refine wp_bind (wp_mono (wp_acceptBlocks h1 hrange hadmits) (fun _ s2 haccs => ?_)
    fun _ _ hfalse => hfalse.elim)
  obtain ⟨h2, haccepted, hdirty⟩ := haccs
  refine wp_pure ⟨h2, ?_, rfl, fun b hb => hdirty b (.inr hb)⟩
  rw [haccepted, hsettles.accepted]

end Ginkgo.Kernel.Writeback.WriteBackDisk
