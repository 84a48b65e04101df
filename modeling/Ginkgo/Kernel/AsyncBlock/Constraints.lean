import Ginkgo.Kernel.AsyncBlock.Shutdown

/-!
# DMA constraints

A buffer is checked against its device when it is submitted, but the device sees pieces of its
segments.  The pieces are as few and as short as the segments and lie where they lie; they are
aligned exactly if the transfer is cut at an aligned place.
-/

namespace Ginkgo.Kernel.AsyncBlock

open Ginkgo.Lib List Option BlockBuffer

variable {config : QueueConfig} {policy : Policy} {t t' : Table} {events : List Event}
  {dma : DmaConstraints} {offset stop : Nat} {segment : DmaSegment} {buffer : BlockBuffer}
  {start : Nat}

/-- The bytes that lie before a segment. -/
def bytesBefore (before : List DmaSegment) : Nat := (before.map (·.length)).sum

/-- The part of a segment that lies in a window; the segment starts at `start`. -/
structure IsCut (offset stop start : Nat) (segment cut : DmaSegment) : Prop where
  overlap : max start offset < min (start + segment.length) stop
  address : cut.physicalAddress = segment.physicalAddress + (max start offset - start)
  length : cut.length = min (start + segment.length) stop - max start offset

theorem cutSegment_cuts {taken result : List DmaSegment}
    (h : BlockBuffer.cutSegment offset stop start segment taken = .ok result) :
    (result = taken ∧ ¬max start offset < min (start + segment.length) stop) ∨
      ∃ cut, result = taken ++ [cut] ∧ IsCut offset stop start segment cut := by
  unfold cutSegment at h
  simp only at h
  split at h
  · rename_i hoverlap
    split at h
    · cases h
    split at h
    · cases h
    · rename_i address haddr
      obtain rfl := Except.ok.inj h
      exact .inr ⟨_, rfl, hoverlap, (checkedAdd_some haddr).1, rfl⟩
  · rename_i hoverlap
    exact .inl ⟨(Except.ok.inj h).symm, hoverlap⟩

/-- Every piece is cut out of one segment, no segment gives two, and every segment that reaches
into the window gives one. -/
theorem sliceFrom_cuts {segments taken result : List DmaSegment}
    (h : BlockBuffer.sliceFrom offset stop start segments taken = .ok result) :
    ∃ cuts, result = taken ++ cuts ∧ cuts.length ≤ segments.length ∧
      (∀ cut ∈ cuts, ∃ before segment after, segments = before ++ segment :: after ∧
        IsCut offset stop (start + bytesBefore before) segment cut) ∧
      ∀ before segment after, segments = before ++ segment :: after →
        max (start + bytesBefore before) offset <
          min (start + bytesBefore before + segment.length) stop →
        ∃ cut ∈ cuts, IsCut offset stop (start + bytesBefore before) segment cut := by
  induction segments generalizing start taken with
  | nil =>
    obtain rfl := Except.ok.inj h
    exact ⟨[], (append_nil _).symm, Nat.le_refl 0, forall_mem_nil _, fun before _ _ heq =>
      absurd heq.symm (append_ne_nil_of_right_ne_nil before (cons_ne_nil _ _))⟩
  | cons segment rest ih =>
    rw [sliceFrom] at h
    split at h
    · cases h
    split at h
    · cases h
    · rename_i taken1 hcut
      -- what this segment gives
      obtain ⟨part, rfl, hone, hpart, hgives⟩ : ∃ part, taken1 = taken ++ part ∧
          part.length ≤ 1 ∧ (∀ cut ∈ part, IsCut offset stop start segment cut) ∧
          (max start offset < min (start + segment.length) stop →
            ∃ cut ∈ part, IsCut offset stop start segment cut) := by
        rcases cutSegment_cuts hcut with ⟨rfl, hnone⟩ | ⟨cut, rfl, hiscut⟩
        · exact ⟨[], (append_nil _).symm, Nat.zero_le 1, forall_mem_nil _, fun h => absurd h hnone⟩
        · refine ⟨[cut], rfl, Nat.le_refl 1, fun other hmem => ?_,
            fun _ => ⟨cut, mem_singleton_self _, hiscut⟩⟩
          rw [mem_singleton.mp hmem]
          exact hiscut
      have hbytes (before : List DmaSegment) : start + bytesBefore (segment :: before) =
          start + segment.length + bytesBefore before := by
        unfold bytesBefore
        rw [map_cons, sum_cons, Nat.add_assoc]
      have hfirst : ∀ cut ∈ part, ∃ before other after, segment :: rest = before ++ other :: after ∧
            IsCut offset stop (start + bytesBefore before) other cut := fun cut hmem =>
        ⟨[], segment, rest, rfl, hpart cut hmem⟩
      split at h
      · obtain rfl := Except.ok.inj h
        refine ⟨part, rfl, ?_, hfirst, fun before other after heq hoverlap => ?_⟩
        · rw [length_cons]
          omega
        · cases before with
          | nil =>
            cases heq
            exact hgives hoverlap
          | cons _ before =>
            cases heq
            rw [hbytes] at hoverlap
            omega
      · obtain ⟨cuts, rfl, hlen, hcuts, hall⟩ := ih h
        refine ⟨part ++ cuts, (append_assoc ..).symm ▸ rfl, ?_, fun cut hmem => ?_,
          fun before other after heq hoverlap => ?_⟩
        · rw [length_append, length_cons]
          omega
        · rcases mem_append.mp hmem with hmem | hmem
          · exact hfirst cut hmem
          · obtain ⟨before, other, after, rfl, hcut⟩ := hcuts cut hmem
            exact ⟨segment :: before, other, after, rfl, (hbytes before).symm ▸ hcut⟩
        · cases before with
          | nil =>
            cases heq
            obtain ⟨cut, hmem, hcut⟩ := hgives hoverlap
            exact ⟨cut, mem_append_left _ hmem, hcut⟩
          | cons _ before =>
            cases heq
            rw [hbytes] at hoverlap ⊢
            obtain ⟨cut, hmem, hcut⟩ := hall before other after rfl hoverlap
            exact ⟨cut, mem_append_right _ hmem, hcut⟩

theorem slice_cuts {length : Nat} {cuts : List DmaSegment}
    (h : buffer.slice offset length = .ok cuts) :
    cuts.length ≤ buffer.segments.length ∧
      (∀ cut ∈ cuts, ∃ before segment after, buffer.segments = before ++ segment :: after ∧
        IsCut offset (offset + length) (bytesBefore before) segment cut) ∧
      ∀ before segment after, buffer.segments = before ++ segment :: after →
        max (bytesBefore before) offset <
          min (bytesBefore before + segment.length) (offset + length) →
        ∃ cut ∈ cuts, IsCut offset (offset + length) (bytesBefore before) segment cut := by
  unfold slice at h
  split at h
  · cases h
  obtain ⟨result, hslice, rfl⟩ : ∃ result,
      sliceFrom offset (offset + length) 0 buffer.segments [] = .ok result ∧ result = cuts := by
    split at h
    · cases h
    · cases h
    · rename_i hslice
      exact ⟨_, hslice, Except.ok.inj h⟩
  obtain ⟨cuts, rfl, hlen, hcuts⟩ := sliceFrom_cuts hslice
  simp only [Nat.zero_add] at hcuts
  exact ⟨hlen, hcuts⟩

/-! ## Checks that survive the cut -/

/-- What the check of a segment asks, but for the alignment. -/
structure Reachable (dma : DmaConstraints) (segment : DmaSegment) : Prop where
  length : segment.length ≤ dma.maxSegmentLen
  word : segment.physicalAddress + (segment.length - 1) ≤ wordMax
  window : dma.addressMode = .bits32 → segment.physicalAddress + (segment.length - 1) ≤ u32Max

theorem validateSegment_eq_ok : BlockBuffer.validateSegment dma segment = .ok () ↔
      Reachable dma segment ∧ segment.physicalAddress % dma.addressAlignment = 0 := by
  unfold validateSegment checkedAdd
  constructor
  · intro h
    split at h
    · cases h
    rename_i hlen
    split at h
    · cases h
    rename_i haligned
    split at h
    · cases h
    rename_i last hlast
    split at hlast
    · rename_i hword
      cases hlast
      split at h
      · cases h
      · rename_i hwindow
        exact ⟨⟨Nat.not_lt.mp hlen, hword, fun hmode =>
          Nat.not_lt.mp fun hlt => hwindow ⟨hmode, hlt⟩⟩, not_not.mp haligned⟩
    · cases hlast
  · rintro ⟨⟨hlen, hword, hwindow⟩, haligned⟩
    rw [if_neg (Nat.not_lt.mpr hlen), if_neg (not_not.mpr haligned), if_pos hword]
    simp only
    rw [if_neg]
    rintro ⟨hmode, hlt⟩
    exact Nat.not_lt.mpr (hwindow hmode) hlt

theorem forM_eq_ok {α ε : Type} {f : α → Except ε Unit} {l : List α} (h : l.forM f = .ok ())
    {a : α} (hmem : a ∈ l) : f a = .ok () := by
  induction l with
  | nil => cases hmem
  | cons b l ih =>
    change (f b >>= fun _ => l.forM f) = .ok () at h
    cases hb : f b with
    | error error =>
      rw [hb] at h
      cases h
    | ok value =>
      rw [hb] at h
      rcases mem_cons.mp hmem with rfl | hmem
      · exact hb
      · exact ih h hmem

theorem validateFor_eq_ok (h : buffer.validateFor dma = .ok ()) :
    buffer.segments.length ≤ dma.maxSegments ∧
      ∀ segment ∈ buffer.segments, BlockBuffer.validateSegment dma segment = .ok () := by
  unfold validateFor at h
  split at h
  · cases h
  · rename_i hcnt
    exact ⟨Nat.not_lt.mp hcnt, fun _ hmem => forM_eq_ok h hmem⟩

theorem IsCut.reachable {cut : DmaSegment} (h : IsCut offset stop start segment cut)
    (hseg : Reachable dma segment) : Reachable dma cut := by
  have hoverlap := h.overlap
  have hlen := hseg.length
  have hword := hseg.word
  refine ⟨?_, ?_, fun hmode => ?_⟩
  · rw [h.length]
    omega
  · rw [h.address, h.length]
    omega
  · have hwindow := hseg.window hmode
    rw [h.address, h.length]
    omega

/-- A cut inside a segment is at an aligned place of it. -/
def CutAligned (alignment offset : Nat) (buffer : BlockBuffer) : Prop :=
  ∀ before segment after, buffer.segments = before ++ segment :: after →
    bytesBefore before < offset → offset < bytesBefore before + segment.length →
      (offset - bytesBefore before) % alignment = 0

theorem IsCut.aligned_iff {cut : DmaSegment} (h : IsCut offset stop start segment cut)
    (hseg : segment.physicalAddress % dma.addressAlignment = 0) :
    cut.physicalAddress % dma.addressAlignment = 0 ↔
      (start < offset → (offset - start) % dma.addressAlignment = 0) := by
  rw [h.address]
  rcases Nat.lt_or_ge start offset with hlt | hge
  · rw [Nat.max_eq_right (Nat.le_of_lt hlt), Nat.add_mod, hseg, Nat.zero_add, Nat.mod_mod]
    exact ⟨fun h _ => h, fun h => h hlt⟩
  · rw [Nat.max_eq_left hge, Nat.sub_self]
    exact ⟨fun _ hlt => absurd hlt (Nat.not_lt.mpr hge), fun _ => hseg⟩

theorem BlockBuffer.bytesBefore_le {before after : List DmaSegment}
    (h : buffer.segments = before ++ segment :: after) :
    bytesBefore before + segment.length ≤ buffer.byteLen := by
  rw [← buffer.total, h, map_append, sum_append, map_cons, sum_cons, ← Nat.add_assoc]
  exact Nat.le_add_right _ _

theorem slice_fits {length : Nat} {cuts : List DmaSegment} (hpos : 0 < length)
    (hvalidate : buffer.validateFor dma = .ok ()) (h : buffer.slice offset length = .ok cuts) :
    cuts.length ≤ dma.maxSegments ∧ (∀ cut ∈ cuts, Reachable dma cut) ∧
      ((∀ cut ∈ cuts, cut.physicalAddress % dma.addressAlignment = 0) ↔
        CutAligned dma.addressAlignment offset buffer) := by
  obtain ⟨hcount, hsegments⟩ := validateFor_eq_ok hvalidate
  obtain ⟨hlen, hcuts, hall⟩ := slice_cuts h
  have hvalid : ∀ before segment after, buffer.segments = before ++ segment :: after →
      Reachable dma segment ∧ segment.physicalAddress % dma.addressAlignment = 0 := by
    intro before segment after heq
    refine validateSegment_eq_ok.mp (hsegments segment ?_)
    rw [heq]
    exact mem_append_right _ mem_cons_self
  refine ⟨Nat.le_trans hlen hcount, fun cut hmem => ?_, ?_, ?_⟩
  · obtain ⟨before, segment, after, heq, hcut⟩ := hcuts cut hmem
    exact hcut.reachable (hvalid before segment after heq).1
  -- a boundary inside a segment is where the piece of that segment starts
  · intro haligned before segment after heq hlt hin
    obtain ⟨cut, hmem, hcut⟩ := hall before segment after heq (by omega)
    exact (hcut.aligned_iff (hvalid before segment after heq).2).mp (haligned cut hmem) hlt
  · intro haligned cut hmem
    obtain ⟨before, segment, after, heq, hcut⟩ := hcuts cut hmem
    have hoverlap := hcut.overlap
    exact (hcut.aligned_iff (hvalid before segment after heq).2).mpr fun hlt =>
      haligned before segment after heq hlt (by omega)

theorem childSlice_fits {slot : RequestSlot} {child byteLen : Nat} {segments : List DmaSegment}
    (hpos : 0 < config.childBytes) (hfits : Fits dma slot.spec)
    (h : AsyncBlockQueue.childSlice config slot child = some (offset, byteLen, segments)) :
    segments.length ≤ dma.maxSegments ∧ (∀ segment ∈ segments, Reachable dma segment) ∧
      ((∀ segment ∈ segments, segment.physicalAddress % dma.addressAlignment = 0) ↔
        ∀ buffer, slot.operation.transfersData = true → slot.buffer = some buffer →
          CutAligned dma.addressAlignment (child * config.childBytes) buffer) := by
  unfold AsyncBlockQueue.childSlice at h
  simp only [bind_eq_bind] at h
  split at h
  · cases h
  split at h
  · rename_i hxfer
    obtain ⟨buffer, hbuf, hch⟩ := bind_eq_some_iff.mp h
    simp only [hxfer, hbuf, some.injEq, forall_eq', true_imp_iff]
    split at hch
    · cases hch
    split at hch
    · rename_i hzero
      simp only [some.injEq] at hch
      obtain ⟨-, -, rfl⟩ := hch
      refine ⟨Nat.zero_le _, forall_mem_nil _, iff_of_true (forall_mem_nil _) ?_⟩
      intro before segment after heq _ hlt
      have hle := BlockBuffer.bytesBefore_le heq
      omega
    · split at hch
      · cases hch
      · rename_i cuts hslice
        simp only [some.injEq] at hch
        obtain ⟨rfl, rfl, rfl⟩ := hch
        exact slice_fits (by omega) (hfits hxfer buffer hbuf) hslice
  · rename_i hfence
    obtain ⟨-, -, rfl⟩ := h
    exact ⟨Nat.zero_le _, forall_mem_nil _,
      iff_of_true (forall_mem_nil _) fun _ hxfer => absurd hxfer hfence⟩

def Fitted (t : Table) : Prop :=
  ∀ slot ∈ t.slots, slot.isLive = true → ∀ i device, t.Present slot.device i device →
    Fits device.config.dma slot.spec

theorem Move.fitted (hmove : Move config policy t events t') (hwf : t.Wf config) (h : Fitted t) :
    Fitted t' := by
  intro slot' hmem hlive i device' hpres'
  obtain ⟨device, hpres, -, hcfg⟩ := hmove.present_of_live hwf hmem hlive hpres'
  rw [hcfg]
  obtain ⟨k, hget⟩ := mem_iff_getElem?.mp hmem
  rcases hmove.live_cases hwf hget hlive with
    ⟨slot, hslot, hslotLive, -, hspec⟩ | ⟨-, -, j, other, hother, hfits⟩
  · rw [hspec]
    have hdev : slot'.device = slot.device := congrArg RequestSpec.device hspec
    rw [hdev] at hpres
    exact h slot (mem_of_getElem? hslot) hslotLive i device hpres
  · obtain ⟨rfl, -⟩ := hwf.device_inj hother.1 hpres.1 (hother.2.2.symm.trans hpres.2.2)
    cases hother.1.symm.trans hpres.1
    exact hfits

end Ginkgo.Kernel.AsyncBlock
