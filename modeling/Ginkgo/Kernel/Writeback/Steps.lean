import Ginkgo.Kernel.Writeback.Refinement

/-!
# Write-back steps

One backing operation writes a run of dirty blocks or flushes the oldest ticket.  Whatever
comes of it, the cache keeps every block it had: at most some dirty ones are clean.
-/

namespace Ginkgo.Kernel.Writeback.WriteBackDisk

open Ginkgo.Lib List

variable {δ β : Type} {content : δ → Nat → β} {origin : Nat → β} {s s' s'' : WriteBackDisk δ β}
  {ticket : Option Nat} {first : CacheEntry β}

def Cleaned (entry entry' : CacheEntry β) : Prop :=
  entry' = entry ∨ entry.state = .dirty ∧ entry' = { entry with state := .clean }

/-- The cache holds what it held, some of it no longer dirty, and no ticket was added. -/
structure Settles (s s' : WriteBackDisk δ β) : Prop where
  lookup : s'.lookup = s.lookup
  mask : s'.lookupMask = s.lookupMask
  entries : List.Forall₂ Cleaned s.entries s'.entries
  writeSequence : s'.writeSequence = s.writeSequence
  requestedSequence : s'.requestedSequence = s.requestedSequence
  accepted : accepted s'.events = accepted s.events
  pending : s'.pending <:+ s.pending

theorem Cleaned.refl (entry : CacheEntry β) : Cleaned entry entry := .inl rfl

theorem Cleaned.trans {entry entry' entry'' : CacheEntry β} (h : Cleaned entry entry')
    (h' : Cleaned entry' entry'') : Cleaned entry entry'' := by
  rcases h with rfl | ⟨hdirty, rfl⟩
  · exact h'
  · rcases h' with rfl | ⟨hclean, -⟩
    · exact .inr ⟨hdirty, rfl⟩
    · cases hclean

theorem cleaned_refl (entries : List (CacheEntry β)) : List.Forall₂ Cleaned entries entries :=
  forall₂_same.mpr fun entry _ => .refl entry

theorem cleaned_bounded {entries entries' : List (CacheEntry β)}
    (h : List.Forall₂ Cleaned entries entries') {bound : Nat}
    (hbnd : ∀ entry ∈ entries, entry.block < bound) : ∀ entry ∈ entries', entry.block < bound := by
  intro entry' hmem
  obtain ⟨i, hent'⟩ := mem_iff_getElem?.mp hmem
  obtain ⟨entry, hent, hcleaned⟩ := forall₂_getElem?_right h hent'
  have hlt := hbnd entry (mem_of_getElem? hent)
  rcases hcleaned with rfl | ⟨-, rfl⟩ <;> exact hlt

theorem Settles.of_entries (hlook : s'.lookup = s.lookup) (hmask : s'.lookupMask = s.lookupMask)
    (hents : s'.entries = s.entries) (hwrite : s'.writeSequence = s.writeSequence)
    (hreqd : s'.requestedSequence = s.requestedSequence)
    (hacc : Writeback.accepted s'.events = Writeback.accepted s.events)
    (hpend : s'.pending <:+ s.pending) : Settles s s' :=
  ⟨hlook, hmask, hents ▸ cleaned_refl s.entries, hwrite, hreqd, hacc, hpend⟩

theorem Settles.refl (s : WriteBackDisk δ β) : Settles s s :=
  .of_entries rfl rfl rfl rfl rfl rfl (suffix_refl _)

theorem Settles.trans (h : Settles s s') (h' : Settles s' s'') : Settles s s'' where
  lookup := h'.lookup.trans h.lookup
  mask := h'.mask.trans h.mask
  entries := forall₂_comp (fun _ _ _ hab hbc => hab.trans hbc) h.entries h'.entries
  writeSequence := h'.writeSequence.trans h.writeSequence
  requestedSequence := h'.requestedSequence.trans h.requestedSequence
  accepted := h'.accepted.trans h.accepted
  pending := h'.pending.trans h.pending

theorem extendRun_spec (hbnd : ∀ entry ∈ s.entries, entry.block < wordMax)
    (ticket : Option Nat) (room : Nat) (prev : CacheEntry β) (hprev : prev.block < wordMax) :
    (∀ mem ∈ s.extendRun ticket room prev, s.entries[mem.1]? = some mem.2 ∧ mem.2.state = .dirty ∧
        prev.firstSequence < mem.2.firstSequence ∧ ∀ t ∈ ticket, mem.2.firstSequence ≤ t) ∧
    (s.extendRun ticket room prev).map (·.2.block) =
      range' (prev.block + 1) (s.extendRun ticket room prev).length ∧
    (s.extendRun ticket room prev).Pairwise
      fun mem mem' => mem.2.firstSequence < mem'.2.firstSequence := by
  induction room generalizing prev with
  | zero => exact ⟨nofun, rfl, .nil⟩
  | succ room ih =>
    rw [extendRun]
    split
    · exact ⟨nofun, rfl, .nil⟩
    rename_i i hmin
    obtain ⟨entry, hent, htest, -⟩ := minEntry_eq_some hmin
    obtain ⟨hdirty, hfirst⟩ := Bool.and_eq_true_iff.mp htest
    have hfirst := of_decide_eq_true hfirst
    have hblock := hbnd entry (mem_of_getElem? hent)
    simp only [hent]
    split
    · exact ⟨nofun, rfl, .nil⟩
    rename_i hnext
    push Not at hnext
    obtain ⟨hadjacent, htkt⟩ := hnext
    rw [saturatingAdd_eq (by omega)] at hadjacent
    obtain ⟨hmembers, hblocks, hpairwise⟩ := ih entry hblock
    have hself : ∀ t ∈ ticket, entry.firstSequence ≤ t := by
      intro t ht
      rw [Option.mem_def.mp ht] at htkt
      simpa using htkt
    refine ⟨fun mem hmem => ?_, ?_, ?_⟩
    · rcases mem_cons.mp hmem with rfl | hmem
      · exact ⟨hent, of_decide_eq_true hdirty, hfirst, hself⟩
      · obtain ⟨hent', hdirty', hfirst', htkt'⟩ := hmembers mem hmem
        exact ⟨hent', hdirty', hfirst.trans hfirst', htkt'⟩
    · rw [map_cons, hblocks, hadjacent, length_cons, range'_succ]
    · exact pairwise_cons.mpr ⟨fun mem hmem => (hmembers mem hmem).2.2.1, hpairwise⟩

/-- A run of dirty entries that hold adjacent blocks, in the order of their sequence. -/
structure IsRun (s : WriteBackDisk δ β) (ticket : Option Nat) (first : CacheEntry β)
    (run : List (Nat × CacheEntry β)) : Prop where
  entry : ∀ member ∈ run, s.entries[member.1]? = some member.2
  dirty : ∀ member ∈ run, member.2.state = .dirty
  due : ∀ member ∈ run, ∀ t ∈ ticket, member.2.firstSequence ≤ t
  blocks : run.map (·.2.block) = range' first.block run.length
  distinct : (run.map (·.1)).Nodup

theorem isRun_extendRun (hbnd : ∀ entry ∈ s.entries, entry.block < wordMax) {i : Nat}
    (hfirst : s.entries[i]? = some first) (hdirty : first.state = .dirty)
    (hdue : ∀ t ∈ ticket, first.firstSequence ≤ t) (room : Nat) :
    IsRun s ticket first ((i, first) :: s.extendRun ticket room first) := by
  obtain ⟨hmembers, hblocks, hpairwise⟩ := extendRun_spec hbnd ticket room first
    (hbnd first (mem_of_getElem? hfirst))
  refine ⟨fun mem hmem => ?_, fun mem hmem => ?_, fun mem hmem => ?_, ?_, ?_⟩
  · rcases mem_cons.mp hmem with rfl | hmem
    · exact hfirst
    · exact (hmembers mem hmem).1
  · rcases mem_cons.mp hmem with rfl | hmem
    · exact hdirty
    · exact (hmembers mem hmem).2.1
  · rcases mem_cons.mp hmem with rfl | hmem
    · exact hdue
    · exact (hmembers mem hmem).2.2.2
  · rw [map_cons, hblocks, length_cons, range'_succ]
  · -- members with the same i would have the same seq
    have hall : ((i, first) :: s.extendRun ticket room first).Pairwise
        fun mem mem' => mem.2.firstSequence < mem'.2.firstSequence :=
      pairwise_cons.mpr ⟨fun mem hmem => (hmembers mem hmem).2.2.1, hpairwise⟩
    refine pairwise_map.mpr (hall.imp_of_mem fun {a b} ha hb hlt heq => ?_)
    have hent : ∀ mem ∈ (i, first) :: s.extendRun ticket room first,
        s.entries[mem.1]? = some mem.2 := by
      intro mem hmem
      rcases mem_cons.mp hmem with rfl | hmem
      · exact hfirst
      · exact (hmembers mem hmem).1
    have hsame := (hent a ha).symm.trans ((congrArg (s.entries[·]?) heq).trans (hent b hb))
    rw [Option.some.inj hsame] at hlt
    exact Nat.lt_irrefl _ hlt

theorem cleanEntries_spec (hindexed : s.Indexed) (run : List (Nat × CacheEntry β))
    (hent : ∀ member ∈ run, s.entries[member.1]? = some member.2)
    (hdirty : ∀ member ∈ run, member.2.state = .dirty) (hdist : (run.map (·.1)).Nodup) :
    let s' : WriteBackDisk δ β := { s with entries := cleanEntries (run.map (·.1)) s.entries }
    s'.Indexed ∧ s'.residence = replay s.residence (run.map fun member =>
        (member.2.block, .clean member.2.data)) ∧
      s'.entries.countP CacheEntry.isDirty + run.length = s.entries.countP CacheEntry.isDirty ∧
      List.Forall₂ Cleaned s.entries s'.entries := by
  induction run generalizing s with
  | nil => exact ⟨hindexed, rfl, rfl, cleaned_refl _⟩
  | cons member run ih =>
    obtain ⟨index, entry⟩ := member
    have hself : s.entries[index]? = some entry := hent _ mem_cons_self
    have hst : entry.state = .dirty := hdirty _ mem_cons_self
    have hused : entry.state ≠ .vacant := by rw [hst]; exact nofun
    obtain ⟨hnotMem, hdist⟩ := nodup_cons.mp hdist
    let entry' : CacheEntry β := { entry with state := .clean }
    have hmodify : s.entries.modify index ({ · with state := .clean }) =
        s.entries.set index entry' := modify_eq_set hself _
    have hused' : entry'.state ≠ .vacant := nofun
    have hset := getElem?_set_iff hself entry'
    have hresid := hindexed.residence_set hself hused hused' rfl
    obtain ⟨hindexed', hresid', hcnt', hcleaned'⟩ := ih (hindexed.set hself hused hused' rfl)
        (fun member hmem => by
          refine (hset member.1 _).mpr (.inr ⟨?_, hent member (mem_cons_of_mem _ hmem)⟩)
          rintro heq
          exact hnotMem (mem_map.mpr ⟨member, hmem, heq⟩))
        (fun member hmem => hdirty member (mem_cons_of_mem _ hmem)) hdist
    have hents : cleanEntries (((index, entry) :: run).map (·.1)) s.entries =
        cleanEntries (run.map (·.1)) (s.entries.set index entry') := by
      rw [← hmodify]
      rfl
    intro s'
    have hs' : s' = { s with
        entries := cleanEntries (run.map (·.1)) (s.entries.set index entry') } := by
      simp only [s', hents]
    rw [hs']
    refine ⟨hindexed', ?_, ?_, ?_⟩
    · change _ = replay (Function.update s.residence entry.block (.clean entry.data)) _
      rw [show Residence.clean entry.data = residenceOf entry' from rfl, ← hresid]
      exact hresid'
    · have hcnt := countP_set_add (p := CacheEntry.isDirty) hself entry'
      simp only [CacheEntry.isDirty, hst, decide_true, if_true, entry', reduceCtorEq,
        decide_false, if_false] at hcnt
      rw [length_cons]
      simp only [entry'] at hcnt' ⊢
      omega
    · have hcleaned : List.Forall₂ Cleaned s.entries (s.entries.set index entry') :=
        forall₂_set_self Cleaned.refl hself (.inr ⟨hst, rfl⟩)
      exact forall₂_comp (fun _ _ _ hab hbc => hab.trans hbc) hcleaned hcleaned'

/-! ## The backing operations -/

theorem wp_onInner {α : Type} {call : δ → Except Errno α × δ}
    {Q : Except Errno α → WriteBackDisk δ β → Prop} {E : Errno → WriteBackDisk δ β → Prop}
    (h : ∀ result inner, call s.inner = (result, inner) → Q result { s with inner := inner }) :
    wp (onInner call) Q E s := h (call s.inner).1 (call s.inner).2 rfl

theorem Consistent.currentFlushTicket_eq (h : s.Consistent) :
    s.currentFlushTicket = s.pending.head? := (head?_ring h.head).symm

theorem Sane.withInner (h : s.Sane content origin) {inner : δ}
    (hsound : ({ s.ledger content with disk := content inner } : Ledger β).Sound origin) :
    ({ s with inner := inner } : WriteBackDisk δ β).Sane content origin := by
  obtain ⟨⟨hindexed, hslots, hhead, hcnt, hwrite, hreqd, hnumbered, hdura, hbatch,
    hbnd⟩, -, hexact⟩ := h
  exact ⟨⟨hindexed.of_eq rfl rfl rfl, hslots, hhead, hcnt, hwrite, hreqd, hnumbered, hdura,
    hbatch, hbnd⟩, hsound, hexact⟩

theorem Sane.keepInner (h : s.Sane content origin) {inner : δ}
    (hinner : content inner = content s.inner) :
    ({ s with inner := inner } : WriteBackDisk δ β).Sane content origin := by
  refine h.withInner ?_
  rw [hinner]
  exact h.sound

theorem Sane.recordFailure (h : s.Sane content origin) (errno : Errno)
    (op : WriteBackFailureOperation) :
    (s.recordFailure errno op).Sane content origin := by
  unfold WriteBackDisk.recordFailure
  split
  · exact h.steer _ _ _ _
  · exact h

theorem Settles.recordFailure (h : Settles s s') (errno : Errno)
    (op : WriteBackFailureOperation) : Settles s (s'.recordFailure errno op) := by
  unfold WriteBackDisk.recordFailure
  split
  · exact h.trans (.of_entries rfl rfl rfl rfl rfl rfl (suffix_refl _))
  · exact h

theorem IsRun.ledger_due {run : List (Nat × CacheEntry β)} (hrun : IsRun s ticket first run)
    (h : s.Sane content origin) (htkt : ticket = s.pending.head?) :
    (s.ledger content).Due (run.map fun mem => (mem.2.block, mem.2.data)) := by
  intro block data hmem
  obtain ⟨mem, hmember, heq⟩ := mem_map.mp hmem
  obtain ⟨rfl, rfl⟩ := Prod.mk.inj heq
  refine ⟨mem.2.firstSequence, mem.2.lastSequence, ?_, fun t ht => ?_⟩
  · exact h.consistent.indexed.dirty_iff.mpr ⟨mem.1, mem.2, hrun.entry mem hmember,
      hrun.dirty mem hmember, rfl, rfl, rfl, rfl⟩
  · exact hrun.due mem hmember t (htkt ▸ ht)

theorem IsRun.zip_eq {run : List (Nat × CacheEntry β)} (hrun : IsRun s ticket first run) :
    (range' first.block (run.map (·.2.data)).length).zip (run.map (·.2.data)) =
      run.map fun mem => (mem.2.block, mem.2.data) := by
  rw [length_map, ← hrun.blocks, zip_map']

section

variable [Disk δ β]

theorem wp_writeBackRun (hdisk : Honest δ β content) (h : s.Sane content origin) {i : Nat}
    (hfirst : s.entries[i]? = some first) (hdirty : first.state = .dirty)
    (hdue : ∀ t ∈ s.currentFlushTicket, first.firstSequence ≤ t) :
    Ends (writeBackRun i s.currentFlushTicket)
    (fun s' => s'.Sane content origin ∧ Settles s s') s := by
  have hc := h.consistent
  have hrun := isRun_extendRun hc.bounded hfirst hdirty hdue (s.writebackBatchBlocks - 1)
  refine wp_get ?_
  simp only [hfirst]
  generalize (i, first) :: s.extendRun s.currentFlushTicket (s.writebackBatchBlocks - 1) first =
    run at hrun
  have hledger := hrun.ledger_due h hc.currentFlushTicket_eq
  refine wp_bind (wp_onInner fun result inner hwrite => ?_)
  -- whatever went wrong, only blocks of the run are touched
  have hspoiled : { s with inner := inner }.Sane content origin := by
    refine h.withInner (h.sound.spoil hledger fun block hblock => ?_)
    have hkeeps := hdisk.write_keeps first.block (run.map (·.2.data)) s.inner block
    rw [hwrite] at hkeeps
    refine hkeeps ?_
    by_contra hcontra
    have hmem : block ∈ run.map (·.2.block) := by
      rw [hrun.blocks, mem_range'_1]
      rw [length_map] at hcontra
      omega
    obtain ⟨mem, hmember, rfl⟩ := mem_map.mp hmem
    exact hblock _ (mem_map.mpr ⟨mem, hmember, rfl⟩) rfl
  have hsettles : Settles s { s with inner := inner } :=
    .of_entries rfl rfl rfl rfl rfl rfl (suffix_refl _)
  cases result with
  | error errno =>
    exact wp_modify_bind (wp_throw ⟨hspoiled.recordFailure _ _, hsettles.recordFailure _ _⟩)
  | ok written =>
    refine wp_ite (fun hwritten => ?_) fun _ => wp_modify_bind (wp_throw
      ⟨hspoiled.recordFailure _ _, hsettles.recordFailure _ _⟩)
    obtain ⟨hindexed, hresid, hcnt, hcleaned⟩ :=
      cleanEntries_spec hc.indexed run hrun.entry hrun.dirty hrun.distinct
    have hcont : content inner = replay (content s.inner)
        (run.map fun mem => (mem.2.block, mem.2.data)) := by
      rw [← hrun.zip_eq]
      refine hdisk.write first.block (run.map (·.2.data)) s.inner inner ?_
      rw [hwrite, hwritten, length_map]
    refine ⟨⟨⟨hindexed.of_eq rfl rfl rfl, ?_, hc.head, ?_, hc.writeSequence, hc.requestedSequence,
      hc.numbered, hc.durable, hc.batch, cleaned_bounded hcleaned hc.bounded⟩, ?_, h.exact⟩,
      ⟨rfl, rfl, hcleaned, rfl, rfl, rfl, suffix_refl _⟩⟩
    · exact hc.slots.trans (by rw [hcleaned.length_eq])
    · have hold := hc.dirtyCount
      simp only at hcnt ⊢
      omega
    · have hsound := h.sound.writeBack hledger
      rw [map_map] at hsound
      have hresid' : ({ s with
            inner := inner
            entries := cleanEntries (run.map (·.1)) s.entries
            dirtyCount := s.dirtyCount - run.length } : WriteBackDisk δ β).residence = _ :=
        (residence_of_eq rfl rfl rfl).trans hresid
      unfold ledger
      rw [hcont, hresid']
      exact hsound

omit [Disk δ β] in
/-- A flush that was tried and recorded, and that found exactly the writes up to its ticket, keeps
the cache sane. -/
theorem Sane.flushed {t : WriteBackDisk δ β} {inner : δ} {ticket durable head len : Nat}
    {result : Except Errno Unit} (h : s.Sane content origin)
    (ht : t = ({ s with
      inner := inner
      durableSequence := durable
      flushTicketHead := head
      flushTicketLen := len } : WriteBackDisk δ β).record (.flush ticket s.inner result))
    (hinner : content inner = content s.inner) (hhead : head < s.flushTickets.length)
    (hreqd : s.requestedSequence = t.pending.getLastD durable)
    (hdura : durable = lastFlushed t.events)
    (hsound : ({ s.ledger content with
      tickets := t.pending
      durable := durable } : Ledger β).Sound origin)
    (hle : ticket ≤ (accepted s.events).length)
    (hcont : content s.inner = replay origin ((accepted s.events).take ticket))
    (hpend : t.pending <:+ s.pending) : t.Sane content origin ∧ Settles s t := by
  have hc := h.consistent
  have hevents : t.events = s.events ++ [.flush ticket s.inner result] := by
    rw [ht]
    rfl
  have hacc : accepted t.events = accepted s.events := by
    rw [hevents, accepted_append]
    exact append_nil _
  subst ht
  refine ⟨⟨⟨hc.indexed.of_eq rfl rfl rfl, hc.slots, hhead, hc.dirtyCount, ?_, hreqd, ?_, hdura,
    hc.batch, hc.bounded⟩, ?_, ?_⟩, .of_entries rfl rfl rfl rfl rfl hacc hpend⟩
  · rw [hacc]
    exact hc.writeSequence
  · rw [hacc, ← hc.numbered, hevents, filterMap_append]
    exact append_nil _
  · unfold ledger at hsound ⊢
    rw [residence_of_eq rfl rfl rfl, hacc]
    exact hinner ▸ hsound
  · intro past ticket' inner' result' future heq
    rw [hevents] at heq
    rcases concat_eq_append_cons heq with ⟨rfl, rfl, hev⟩ | ⟨rest, -, heq⟩
    · obtain ⟨rfl, rfl, -⟩ := Event.flush.inj hev
      exact ⟨hle, hcont⟩
    · exact h.exact past ticket' inner' result' rest heq

variable (hdisk : Honest δ β content) (h : s.Sane content origin)
include hdisk h

theorem wp_flushBacking {ticket : Nat} {rest : List Nat} (hpend : s.pending = ticket :: rest)
    (hready : ∀ block data first last, s.residence block = .dirty data first last →
      ticket < first) :
    Ends (flushBacking ticket) (fun s' => s'.Sane content origin ∧ Settles s s') s := by
  have hc := h.consistent
  have hcont : content s.inner = replay origin ((accepted s.events).take ticket) :=
    h.sound.disk_at_flush hpend hready
  have hle : ticket ≤ (accepted s.events).length :=
    h.sound.le_length (show ticket ∈ s.pending by rw [hpend]; exact mem_cons_self)
  unfold flushBacking
  refine wp_get (wp_bind (wp_onInner fun result inner hflush => wp_modify_bind ?_))
  have hinner : content inner = content s.inner := by
    have hkeeps := hdisk.flush_keeps s.inner
    rw [hflush] at hkeeps
    exact hkeeps
  cases result with
  | error errno =>
    have hdura : lastFlushed (s.events ++ [.flush ticket s.inner (.error errno)]) =
        lastFlushed s.events := by
      simp [lastFlushed, Event.flushed?]
    obtain ⟨hsane, hsettles⟩ := h.flushed (t := ({ s with inner := inner } :
        WriteBackDisk δ β).record (.flush ticket s.inner (.error errno)))
      rfl hinner hc.head hc.requestedSequence
      (hc.durable.trans hdura.symm) h.sound hle hcont (suffix_refl _)
    exact wp_modify_bind (wp_throw ⟨hsane.recordFailure errno _, hsettles.recordFailure errno _⟩)
  | ok value =>
    let t : WriteBackDisk δ β := ({ s with
      inner := inner
      durableSequence := ticket
      flushTicketHead := (s.flushTicketHead + 1) % s.flushTickets.length
      flushTicketLen := s.flushTicketLen - 1 } : WriteBackDisk δ β).record
      (.flush ticket s.inner (.ok ()))
    have hrest : t.pending = rest := by
      have htail : t.pending = s.pending.tail := tail_ring hc.head
      rw [htail, hpend]
      rfl
    have hflushed := h.flushed (t := t) rfl hinner
      (Nat.mod_lt _ (Nat.lt_of_le_of_lt (Nat.zero_le _) hc.head))
      (by rw [hrest, hc.requestedSequence, hpend, getLastD_cons])
      (by simp [t, record, lastFlushed, Event.flushed?])
      (by rw [hrest]; exact h.sound.flush hpend) hle hcont
      (by rw [hrest, hpend]; exact suffix_cons ticket rest)
    exact wp_modify_bind (wp_pure hflushed)

/-- A backing operation keeps the ledger, whether it succeeds or not. -/
theorem wp_writebackStep :
    Ends writebackStep (fun s' => s'.Sane content origin ∧ Settles s s') s := by
  have hc := h.consistent
  unfold writebackStep
  refine wp_get ?_
  cases s.failure with
  | some failure => exact wp_throw ⟨h, .refl s⟩
  | none =>
    simp only
    split
    · -- no dirty block is due before the oldest ticket
      rename_i ticket hcurrent
      obtain ⟨hcurrent, hready⟩ := Option.filter_eq_some_iff.mp hcurrent
      obtain ⟨rest, hpend⟩ : ∃ rest, s.pending = ticket :: rest :=
        head?_eq_some_iff.mp (hc.currentFlushTicket_eq ▸ hcurrent)
      refine wp_flushBacking hdisk h hpend fun block data first last hdirty => ?_
      obtain ⟨i, entry, hent, hst, -, -, rfl, -⟩ := hc.indexed.dirty_iff.mp hdirty
      cases hlowest : s.lowestSequenceDirty with
      | none =>
        have hclean := minEntry_eq_none hlowest hent
        exact absurd (decide_eq_true hst) (Bool.eq_false_iff.mp hclean)
      | some index =>
        obtain ⟨lowest, hmember, -, hleast⟩ := minEntry_eq_some hlowest
        simp only [hlowest, Option.bind_some, hmember] at hready
        exact (of_decide_eq_true hready).trans_le (hleast i entry hent (decide_eq_true hst))
    · rename_i hcurrent
      cases hlowest : s.lowestSequenceDirty with
      | none => exact wp_pure ⟨h, .refl s⟩
      | some index =>
        obtain ⟨lowest, hmember, hst, -⟩ := minEntry_eq_some hlowest
        refine wp_writeBackRun hdisk h hmember (of_decide_eq_true hst) fun ticket htkt => ?_
        have hready := Option.filter_eq_none_iff.mp hcurrent ticket htkt
        simp only [hlowest, Option.bind_some, hmember, decide_eq_true_eq] at hready
        exact Nat.not_lt.mp hready

theorem wp_retryWritebackStep :
    Ends retryWritebackStep (fun s' => s'.Sane content origin ∧ Settles s s') s := by
  unfold retryWritebackStep
  refine wp_modify_bind ?_
  have hsettles : Settles s { s with failure := none } :=
    .of_entries rfl rfl rfl rfl rfl rfl (suffix_refl _)
  refine Ends.mono (wp_writebackStep hdisk (h.steer none _ _ _)) fun _ hstep => ?_
  exact ⟨hstep.1, hsettles.trans hstep.2⟩

theorem wp_drainSteps (ticket room steps : Nat) :
    Ends (drainSteps ticket room steps) (fun s' => s'.Sane content origin ∧ Settles s s') s := by
  induction room generalizing s steps with
  | zero => exact wp_pure ⟨h, .refl s⟩
  | succ room ih =>
    rw [drainSteps]
    refine wp_get (wp_ite (fun _ => ?_) fun _ => wp_pure ⟨h, .refl s⟩)
    refine wp_seq (wp_writebackStep hdisk h) fun progress s' hstep => ?_
    cases progress with
    | idle => exact wp_pure hstep
    | wroteBlock _ _ _ | flushed _ =>
      exact Ends.mono (ih hstep.1 _) fun _ hrest => ⟨hrest.1, hstep.2.trans hrest.2⟩

theorem wp_drainTicket (ticket maxSteps : Nat) :
    Ends (drainTicket ticket maxSteps) (fun s' => s'.Sane content origin ∧ Settles s s') s := by
  unfold drainTicket
  refine wp_seq (wp_drainSteps hdisk h ticket maxSteps 0) fun _ s' hsteps => ?_
  exact wp_get (wp_pure hsteps)

end

/-!
## Flush tickets

Between two pending tickets there is a dirty block that waits for the later one, so the ring
has room for every request: there are more slots than entries.
-/

def dirtyFirsts (s : WriteBackDisk δ β) : List Nat :=
  (s.entries.filter CacheEntry.isDirty).map (·.firstSequence)

theorem length_dirtyFirsts (s : WriteBackDisk δ β) :
    s.dirtyFirsts.length = s.entries.countP CacheEntry.isDirty := by
  rw [dirtyFirsts, length_map, countP_eq_length_filter]

theorem Indexed.mem_dirtyFirsts (h : s.Indexed) {block first last : Nat} {data : β}
    (hdirty : s.residence block = .dirty data first last) : first ∈ s.dirtyFirsts := by
  obtain ⟨i, entry, hent, hst, -, -, rfl, -⟩ := h.dirty_iff.mp hdirty
  exact mem_map_of_mem (mem_filter.mpr ⟨mem_of_getElem? hent, decide_eq_true hst⟩)

/-- A dirty entry waits for every ticket but the oldest. -/
theorem Sane.gap (h : s.Sane content origin) {before after : List Nat} {ticket ticket' : Nat}
    (hpend : s.pending = before ++ ticket :: ticket' :: after) :
    ∃ first ∈ s.dirtyFirsts, ticket < first ∧ first ≤ ticket' := by
  obtain ⟨block, data, first, last, hdirty, hlt, hle⟩ := h.sound.owes.next _ _ _ _ hpend
  exact ⟨first, h.consistent.indexed.mem_dirtyFirsts hdirty, hlt, hle⟩

theorem Sane.pending_le (h : s.Sane content origin) :
    s.pending.length ≤ s.entries.countP CacheEntry.isDirty + 1 := by
  rw [← length_dirtyFirsts]
  exact length_le_of_gaps fun _ _ _ _ hpend => h.gap hpend

theorem Consistent.length_pending (h : s.Consistent) : s.pending.length = s.flushTicketLen :=
  length_ring _ _ _ (Nat.lt_of_le_of_lt (Nat.zero_le _) h.head)

section

variable (h : s.Sane content origin)
include h

theorem Sane.requested_le : s.requestedSequence ≤ s.writeSequence := by
  rw [h.consistent.requestedSequence, h.consistent.writeSequence]
  exact h.sound.counted

/-- A dirty entry waits for the ticket that would be issued now, if another is pending. -/
theorem Sane.room (hlt : s.requestedSequence < s.writeSequence) :
    s.flushTicketLen < s.flushTickets.length := by
  have hc := h.consistent
  have hsize : s.entries.countP CacheEntry.isDirty ≤ s.entries.length := countP_le_length
  rw [← hc.length_pending, hc.slots]
  by_cases hnil : s.pending = []
  · rw [hnil]
    exact Nat.succ_pos _
  have hmarks : (s.pending ++ [s.writeSequence]).length ≤ s.dirtyFirsts.length + 1 := by
    refine length_le_of_gaps fun before a b after heq => ?_
    rcases eq_nil_or_concat after with rfl | ⟨after, last, rfl⟩
    · -- the last gap is before the new ticket
      have hsplit : s.pending ++ [s.writeSequence] = (before ++ [a]) ++ [b] := by
        rw [heq, append_assoc]
        rfl
      obtain ⟨hinit, hb⟩ := append_inj' hsplit rfl
      obtain ⟨rfl⟩ := cons.inj hb
      have hreqd : s.requestedSequence = a := by
        rw [hc.requestedSequence, hinit, getLastD_concat]
      have hledger : (s.ledger content).requested < (s.ledger content).writes.length := by
        rw [hc.requestedSequence, hc.writeSequence] at hlt
        exact hlt
      obtain ⟨block, data, first, last, hdirty, hfirst⟩ := h.sound.owes.last hnil hledger
      refine ⟨first, hc.indexed.mem_dirtyFirsts hdirty, ?_, ?_⟩
      · rw [← hreqd, hc.requestedSequence]
        exact hfirst
      · obtain ⟨hle, hlast, -⟩ := h.sound.numbered block data first last hdirty
        rw [hc.writeSequence]
        exact hle.trans hlast
    · have hsplit : s.pending ++ [s.writeSequence] = (before ++ a :: b :: after) ++ [last] := by
        rw [heq, append_assoc, cons_append, cons_append, concat_eq_append]
      exact h.gap (append_inj' hsplit rfl).1
  rw [length_append, length_dirtyFirsts, length_singleton] at hmarks
  omega

/-- A request fails only for a failure that was there before. -/
theorem wp_requestDurability : wp requestDurability
      (fun ticket s' => s'.Sane content origin ∧ accepted s'.events = accepted s.events ∧
        ticket = s.writeSequence ∧ s.failure = none)
      (fun errno s' => s' = s ∧ ∃ failure, s.failure = some failure ∧ errno = failure.errno) s := by
  have hc := h.consistent
  refine wp_get ?_
  cases hfailure : s.failure with
  | some failure => exact wp_throw ⟨rfl, failure, rfl, rfl⟩
  | none =>
    refine wp_ite (fun heq => wp_pure ⟨h, rfl, heq.symm, rfl⟩) fun hne => ?_
    have hlt : s.requestedSequence < s.writeSequence := by
      have hle := h.requested_le
      omega
    have hroom := h.room hlt
    refine wp_ite (fun hfull => absurd hfull (Nat.ne_of_lt hroom)) fun _ => ?_
    let t : WriteBackDisk δ β := { s with
      flushTickets := s.flushTickets.set
        ((s.flushTicketHead + s.flushTicketLen) % s.flushTickets.length) s.writeSequence
      flushTicketLen := s.flushTicketLen + 1
      requestedSequence := s.writeSequence
      failure := none }
    have hpend : t.pending = s.pending ++ [s.writeSequence] := ring_push s.writeSequence hroom
    have hledger : t.ledger content =
        { s.ledger content with tickets := s.pending ++ [(accepted s.events).length] } := by
      have hresid : t.residence = s.residence := residence_of_eq rfl rfl rfl
      unfold ledger
      rw [hresid, hpend, hc.writeSequence]
    have hsane : t.Sane content origin := by
      refine ⟨⟨hc.indexed.of_eq rfl rfl rfl, length_set.trans hc.slots,
        hc.head.trans_eq length_set.symm, hc.dirtyCount, hc.writeSequence, ?_, hc.numbered,
        hc.durable, hc.batch, hc.bounded⟩, ?_, h.exact⟩
      · rw [hpend, getLastD_concat]
      · rw [hledger]
        refine h.sound.request ?_
        rw [hc.requestedSequence, hc.writeSequence] at hlt
        exact hlt
    exact wp_set_bind (wp_pure ⟨hsane, rfl, rfl, rfl⟩)

theorem wp_quiesce :
    Ends quiesce (fun s' => s'.Sane content origin ∧ accepted s'.events = accepted s.events) s := by
  have hquiesced := h.steer s.failure true s.asyncWritebackEnabled s.accessClock
  refine wp_modify_bind (wp_mono (wp_requestDurability hquiesced) ?_ ?_)
  · exact fun _ _ hreq => ⟨hreq.1, hreq.2.1⟩
  · rintro _ _ ⟨rfl, -⟩
    exact ⟨hquiesced, rfl⟩

theorem wp_resumeAfterQuiesce : Ends resumeAfterQuiesce
      (fun s' => s'.Sane content origin ∧ accepted s'.events = accepted s.events) s := by
  refine wp_get ?_
  cases s.failure with
  | some failure => exact wp_throw ⟨h, rfl⟩
  | none => exact wp_set ⟨h.steer _ false _ _, rfl⟩

end

variable [Disk δ β]

theorem wp_shutdownDrain (hdisk : Honest δ β content) (h : s.Sane content origin) (maxSteps : Nat) :
    Ends (shutdownDrain maxSteps)
      (fun s' => s'.Sane content origin ∧ accepted s'.events = accepted s.events) s := by
  refine wp_seq (wp_quiesce h) fun ticket s1 hquiesce => ?_
  refine Ends.mono (wp_drainTicket hdisk hquiesce.1 ticket maxSteps) fun _ hdrain => ?_
  exact ⟨hdrain.1, hdrain.2.accepted.trans hquiesce.2⟩

theorem wp_flush (hdisk : Honest δ β content) (h : s.Sane content origin) :
    Ends flush (fun s' => s'.Sane content origin ∧ accepted s'.events = accepted s.events) s := by
  refine wp_bind (wp_mono (wp_requestDurability h) (fun ticket s1 hreq => ?_) ?_)
  · obtain ⟨h1, hacc, -⟩ := hreq
    refine wp_get (wp_ite (fun _ => wp_pure ⟨h1, hacc⟩) fun _ => ?_)
    refine wp_bind (wp_attempt (wp_mono
      (wp_drainTicket hdisk h1 ticket (s1.entries.length + 1)) ?_ ?_))
    · intro report s2 hdrain
      have hdone : s2.Sane content origin ∧ accepted s2.events = accepted s.events :=
        ⟨hdrain.1, hdrain.2.accepted.trans hacc⟩
      exact wp_ite (fun _ => wp_throw hdone) fun _ => wp_pure hdone
    · exact fun _ _ hdrain => wp_throw ⟨hdrain.1, hdrain.2.accepted.trans hacc⟩
  · rintro _ _ ⟨rfl, -⟩
    exact ⟨h, rfl⟩

end Ginkgo.Kernel.Writeback.WriteBackDisk
