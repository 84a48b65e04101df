import Ginkgo.Kernel.WaitRuntime.Consistency

/-!
# The runtime refines the pool

Every call keeps the tables consistent and is a step of the pool that the tables stand for.
-/

namespace Ginkgo.Kernel

open Ginkgo.Ipc Ginkgo.Lib List ObserverState

variable {K : Type} {s : WaitRuntime K}

namespace WaitRuntime

/-- The pool that the tables stand for. -/
def pool (s : WaitRuntime K) : Pool K := ⟨fun token => s.find token, {token | s.Spent token},
  s.observer.ready⟩

theorem HeapIndexed.congr {s s' : WaitRuntime K} (h : s.HeapIndexed)
    (hddls : s'.deadlines = s.deadlines) (hpos : s'.heapPosition = s.heapPosition)
    (hcurrent : ∀ entry ∈ s.deadlines, s'.Current entry) : s'.HeapIndexed := by
  have hents : deadlineHeap.entries s' = deadlineHeap.entries s := hddls
  refine ⟨⟨fun index k => ?_, fun entry hmem => ?_⟩, ?_⟩
  · rw [hpos, hents]
    exact h.position_iff index k
  · rw [hents] at hmem
    exact hcurrent entry hmem
  · rw [hents]
    exact h.ordered

theorem heapPosition_none_iff (h : s.HeapIndexed) (index : Nat) :
    s.heapPosition index = none ↔ ∀ entry ∈ s.deadlines, slotIndex entry ≠ index := by
  rw [Option.eq_none_iff_forall_ne_some]
  constructor
  · intro hnone entry hmem heq
    obtain ⟨k, hk⟩ := mem_iff_getElem?.mp hmem
    exact hnone k ((h.position_iff index k).mpr ⟨entry, hk, heq⟩)
  · intro hne k hk
    obtain ⟨entry, hent, heq⟩ := (h.position_iff index k).mp hk
    exact hne entry (mem_of_getElem? hent) heq

theorem removeDeadlineAt_spec (h : s.HeapIndexed) {k : Nat}
    {entry : DeadlineEntry} (hent : s.deadlines[k]? = some entry) :
    (s.removeDeadlineAt k).HeapIndexed ∧ ∀ other, other ∈ (s.removeDeadlineAt k).deadlines ↔
        other ∈ s.deadlines ∧ slotIndex other ≠ slotIndex entry := by
  obtain ⟨hindexed, hperm⟩ := IndexedHeap.removeAt_spec deadlineHeap_lawful h hent
  refine ⟨hindexed, fun other => ?_⟩
  have hnodup := (hperm.map slotIndex).nodup_iff.mp h.nodup
  rw [map_cons, nodup_cons] at hnodup
  have hmem : other ∈ s.deadlines ↔ other = entry ∨ other ∈ (s.removeDeadlineAt k).deadlines := by
    rw [← mem_cons]
    exact hperm.mem_iff
  constructor
  · intro hother
    refine ⟨hmem.mpr (.inr hother), fun heq => hnodup.1 ?_⟩
    rw [← heq]
    exact mem_map_of_mem hother
  · rintro ⟨hother, hne⟩
    rcases hmem.mp hother with rfl | hother
    · exact absurd rfl hne
    · exact hother

theorem removeSlotDeadline_spec (h : s.HeapIndexed) (index : Nat) :
    (s.removeSlotDeadline index).HeapIndexed ∧
      ∀ entry, entry ∈ (s.removeSlotDeadline index).deadlines ↔
        entry ∈ s.deadlines ∧ slotIndex entry ≠ index := by
  unfold removeSlotDeadline
  cases hpos : s.heapPosition index with
  | none =>
    simp only [heapPosition] at hpos
    rw [hpos]
    refine ⟨h, fun entry => ⟨fun hmem => ⟨hmem, ?_⟩, And.left⟩⟩
    exact (heapPosition_none_iff h index).mp hpos entry hmem
  | some k =>
    obtain ⟨entry, hent, rfl⟩ := (h.position_iff index k).mp hpos
    simp only [heapPosition] at hpos
    rw [hpos]
    exact removeDeadlineAt_spec h hent

theorem removeSlotDeadline_frame (index : Nat) (s : WaitRuntime K) :
    (s.removeSlotDeadline index).uses = s.uses ∧
      (s.removeSlotDeadline index).capacity = s.capacity ∧
      (s.removeSlotDeadline index).observer = s.observer := by
  unfold removeSlotDeadline
  split
  · simpa only [Prod.mk.injEq, removeDeadlineAt] using rest_unaffected.removeAt _ s
  · exact ⟨rfl, rfl, rfl⟩

namespace TablesAgree

variable {s s' : WaitRuntime K} {index : Nat} {use use' : SlotUse K} {obs obs' : ObserverSlot}

variable (h : s.TablesAgree) (huse : s.uses[index]? = some use)
include h huse

theorem find_none (hfree : use.wait = none) : s.find (encodeToken index use.generation) = none := by
  rw [Option.eq_none_iff_forall_ne_some]
  intro found hfound
  obtain ⟨i, use', huse', hwait', htok⟩ := (h.find_iff _ _).mp hfound
  obtain ⟨rfl, -⟩ := h.token_inj huse huse' htok
  cases huse.symm.trans huse'
  exact nomatch hfree.symm.trans hwait'

variable (huses : s'.uses = s.uses.set index use')
include huses

theorem set (hcap : s'.capacity = s.capacity) (hobs : s.observer.slots[index]? = some obs)
    (hobserved : s'.observer.slots = s.observer.slots.set index obs')
    (hagree : SlotsAgree use' obs') : s'.TablesAgree := by
  refine ⟨hcap ▸ h.capacity_le, ?_, ?_, fun i use1 obs1 huse1 hobs1 => ?_⟩
  · rw [huses, length_set, hcap]
    exact h.uses_length
  · rw [hobserved, length_set, hcap]
    exact h.observer_length
  · rw [huses, getElem?_set_iff huse] at huse1
    rw [hobserved, getElem?_set_iff hobs] at hobs1
    rcases huse1, hobs1 with ⟨⟨hi, rfl⟩ | ⟨hi, huse1⟩, ⟨hi', rfl⟩ | ⟨hi', hobs1⟩⟩
    · exact hagree
    · exact absurd hi hi'
    · exact absurd hi' hi
    · exact h.agree i use1 obs1 huse1 hobs1

theorem find_set (h' : s'.TablesAgree) (token : WaitToken) (found : Wait K) :
    s'.find token = some found ↔
      s.find token = some found ∧ token ≠ encodeToken index use.generation ∨
        token = encodeToken index use'.generation ∧ use'.wait = some found := by
  simp only [h'.find_iff, h.find_iff, huses, getElem?_set_iff huse]
  constructor
  · rintro ⟨i, use1, ⟨rfl, rfl⟩ | ⟨hi, huse1⟩, hwait, rfl⟩
    · exact .inr ⟨rfl, hwait⟩
    · exact .inl ⟨⟨i, use1, huse1, hwait, rfl⟩, fun heq => hi (h.token_inj huse1 huse heq).1⟩
  · rintro (⟨⟨i, use1, huse1, hwait, rfl⟩, hne⟩ | ⟨rfl, hwait⟩)
    · refine ⟨i, use1, .inr ⟨?_, huse1⟩, hwait, rfl⟩
      rintro rfl
      cases huse.symm.trans huse1
      exact hne rfl
    · exact ⟨index, use', .inl ⟨rfl, rfl⟩, hwait, rfl⟩

theorem spent_set (h' : s'.TablesAgree) {p : Nat → Prop} (hgens : ∀ generation,
      generation < use'.generation ∨ generation = use'.generation ∧ use'.retired = true ↔
        p generation ∨ generation < use.generation ∨
          generation = use.generation ∧ use.retired = true) (token : WaitToken) :
    s'.Spent token ↔ (∃ generation, 0 < generation ∧ p generation ∧
      token = encodeToken index generation) ∨ s.Spent token := by
  simp only [h'.spent_iff, h.spent_iff, huses, getElem?_set_iff huse]
  constructor
  · rintro ⟨i, use1, generation, ⟨rfl, rfl⟩ | ⟨-, huse1⟩, hpos, rfl, hor⟩
    · exact ((hgens generation).mp hor).imp (⟨generation, hpos, ·, rfl⟩)
        (⟨i, use, generation, huse, hpos, rfl, ·⟩)
    · exact .inr ⟨i, use1, generation, huse1, hpos, rfl, hor⟩
  · rintro (⟨generation, hpos, hgen, rfl⟩ | ⟨i, use1, generation, huse1, hpos, rfl, hor⟩)
    · exact ⟨index, use', generation, .inl ⟨rfl, rfl⟩, hpos, rfl,
        (hgens generation).mpr (.inl hgen)⟩
    · by_cases hi : i = index
      · subst hi
        cases huse.symm.trans huse1
        exact ⟨i, use', generation, .inl ⟨rfl, rfl⟩, hpos, rfl, (hgens generation).mpr (.inr hor)⟩
      · exact ⟨i, use1, generation, .inr ⟨hi, huse1⟩, hpos, rfl, hor⟩

end TablesAgree

/-! ## A token is used up -/

/-- The slot `index` gives up its wait; the three paths that do so differ in how they find it. -/
structure Gives (s s' : WaitRuntime K) (index : Nat) (use : SlotUse K) : Prop where
  capacity : s'.capacity = s.capacity
  uses : s'.uses = s.uses.set index
    ⟨(advancedGeneration use.generation).1, (advancedGeneration use.generation).2, none⟩
  observed : s'.observer.slots = s.observer.slots.set index
    ⟨(advancedGeneration use.generation).1, (advancedGeneration use.generation).2, false, false⟩
  ready : s'.observer.ready =
    s.observer.ready.filter fun record => record.token ≠ encodeToken index use.generation
  heap : s'.HeapIndexed
  deadlines : ∀ entry, entry ∈ s'.deadlines ↔ entry ∈ s.deadlines ∧ slotIndex entry ≠ index

theorem advancedGeneration_cases (generation : Nat) :
    advancedGeneration generation = (generation + 1, false) ∧ generation + 1 ≤ u32Max ∨
      advancedGeneration generation = (generation, true) := by
  by_cases hle : generation + 1 ≤ u32Max
  · exact .inl ⟨if_pos hle, hle⟩
  · exact .inr (if_neg hle)

/-- The generations that were used before the slot gave up its wait, and that of the wait. -/
theorem advancedGeneration_spent (generation old : Nat) : old < (advancedGeneration generation).1 ∨
        old = (advancedGeneration generation).1 ∧ (advancedGeneration generation).2 = true ↔
      old < generation ∨ old = generation := by
  rcases advancedGeneration_cases generation with ⟨heq, _⟩ | heq
  · simp only [heq, Bool.false_eq_true, and_false, or_false]
    omega
  · simp [heq]

section Gives

variable {s s' : WaitRuntime K} {index : Nat} {use : SlotUse K} {wait : Wait K}

section

variable (h : s.TablesAgree) (hgives : Gives s s' index use) (huse : s.uses[index]? = some use)
include h hgives huse

theorem Gives.tablesAgree : s'.TablesAgree := by
  obtain ⟨obs, hobs, hagree⟩ := h.observed huse
  have hpos := hagree.generation_pos
  have hle := hagree.generation_le
  refine h.set huse hgives.uses hgives.capacity hobs hgives.observed
    ⟨rfl, rfl, rfl, ?_, ?_, nofun, nofun⟩ <;>
    rcases advancedGeneration_cases use.generation with ⟨heq, _⟩ | heq <;>
    simp only [heq] <;> omega

theorem Gives.find (token : WaitToken) (found : Wait K) : s'.find token = some found ↔
      s.find token = some found ∧ token ≠ encodeToken index use.generation := by
  rw [h.find_set huse hgives.uses (hgives.tablesAgree h huse)]
  exact or_iff_left fun hnone => nomatch hnone.2

theorem Gives.spent (hwait : use.wait = some wait) (token : WaitToken) :
    s'.Spent token ↔ token = encodeToken index use.generation ∨ s.Spent token := by
  obtain ⟨_, -, hagree⟩ := h.observed huse
  have hret : use.retired = false := hagree.active_retired (by rw [hwait]; rfl)
  rw [h.spent_set huse hgives.uses (hgives.tablesAgree h huse) (p := (· = use.generation))
    fun generation => by rw [advancedGeneration_spent, hret, or_comm]; simp]
  refine or_congr_left ⟨?_, ?_⟩
  · rintro ⟨_, -, rfl, rfl⟩
    rfl
  · rintro rfl
    exact ⟨_, hagree.generation_pos, rfl, rfl⟩

theorem Gives.pool_eq (hwait : use.wait = some wait) :
    s'.pool = s.pool.remove (encodeToken index use.generation) := by
  unfold pool Pool.remove
  congr 1
  · funext token
    apply Option.ext
    intro found
    rw [hgives.find h huse]
    by_cases heq : token = encodeToken index use.generation
    · subst heq
      simp
    · simp [heq]
  · ext token
    exact hgives.spent h huse hwait token
  · exact hgives.ready

end

theorem Consistent.slotIndex_eq (h : s.Consistent) {entry : DeadlineEntry} {i : Nat}
    {generation : Nat} (huse : s.uses[i]? = some use)
    (htok : entry.token = encodeToken i generation) : slotIndex entry = i := by
  unfold slotIndex
  rw [htok]
  exact tokenIndex_encodeToken generation ((h.index_lt huse).trans_le h.capacity_le)

theorem Gives.consistent (h : s.Consistent) (hgives : Gives s s' index use)
    (huse : s.uses[index]? = some use) : s'.Consistent := by
  have h' := hgives.tablesAgree h.toTablesAgree huse
  have hfilter : s'.observer.ready.map (·.token) = (s.observer.ready.map (·.token)).filter
      (· ≠ encodeToken index use.generation) := by
    rw [hgives.ready, filter_map]
    rfl
  refine { h' with ready_nodup := ?_, ready_iff := ?_, heap := hgives.heap, deadlines_iff := ?_ }
  · rw [hfilter]
    exact h.ready_nodup.filter _
  · intro token
    obtain ⟨_, hobs', -⟩ := h.observed huse
    simp only [hfilter, mem_filter, decide_eq_true_eq, h.ready_iff, hgives.observed,
      getElem?_set_iff hobs']
    constructor
    · rintro ⟨⟨i, obs, hobs, hqueued, rfl⟩, hne⟩
      refine ⟨i, obs, .inr ⟨?_, hobs⟩, hqueued, rfl⟩
      rintro rfl
      rw [(h.agree i use obs huse hobs).generation] at hne
      exact hne rfl
    · rintro ⟨i, obs, ⟨-, rfl⟩ | ⟨hi, hobs⟩, hqueued, rfl⟩
      · cases hqueued
      · obtain ⟨use', huse', -⟩ := h.used hobs
        exact ⟨⟨i, obs, hobs, hqueued, rfl⟩, fun heq => hi (h.token_inj huse' huse heq).1⟩
  · intro entry
    rw [hgives.deadlines, h.deadlines_iff]
    simp only [hgives.find h.toTablesAgree huse]
    constructor
    · rintro ⟨⟨wait, hfind, hddl⟩, hne⟩
      refine ⟨wait, ⟨hfind, fun heq => hne ?_⟩, hddl⟩
      exact h.slotIndex_eq huse heq
    · rintro ⟨wait, ⟨hfind, hne⟩, hddl⟩
      refine ⟨⟨wait, hfind, hddl⟩, fun heq => hne ?_⟩
      obtain ⟨i, use', huse', -, htok⟩ := (h.find_iff _ _).mp hfind
      rw [h.slotIndex_eq huse' htok] at heq
      subst heq
      cases huse.symm.trans huse'
      exact htok

end Gives

section Paths

variable {s : WaitRuntime K} {index : Nat} {use : SlotUse K} {wait : Wait K} {token : WaitToken}
  {o : ObserverState}

theorem uses_releaseSlot (index generation : Nat) (retired : Bool) (s : WaitRuntime K) :
    (s.releaseSlot index generation retired).uses =
      s.uses.set index ⟨generation, retired, none⟩ := by
  unfold releaseSlot uses
  apply ext_getElem?
  intro i
  by_cases hi : index = i
  · subst hi
    rw [getElem?_map, getElem?_modify_eq, getElem?_set_self', getElem?_map]
    cases s.slots[index]? <;> rfl
  · rw [getElem?_map, getElem?_modify_ne _ _ hi, getElem?_set_ne hi, getElem?_map]

theorem HeapIndexed.withObserver (h : s.HeapIndexed) (o : ObserverState) :
    HeapIndexed { s with observer := o } :=
  h.congr rfl rfl fun entry hmem => h.live entry hmem

/-- The rest of a cancellation or of a wake, once the observer's table has given up the wait. -/
theorem gives_removeSlotDeadline (h : s.HeapIndexed) (hobs : o.slots = s.observer.slots.set index
      ⟨(advancedGeneration use.generation).1, (advancedGeneration use.generation).2, false, false⟩)
    (hready : o.ready =
      s.observer.ready.filter fun record => record.token ≠ encodeToken index use.generation) :
    Gives s ((removeSlotDeadline index { s with observer := o }).releaseSlot index
      (advancedGeneration use.generation).1 (advancedGeneration use.generation).2) index use := by
  obtain ⟨huses, hcap, hobserver⟩ := removeSlotDeadline_frame index { s with observer := o }
  obtain ⟨hheap, hddls⟩ := removeSlotDeadline_spec (h.withObserver o) index
  rw [← show _ = o from hobserver] at hobs hready
  generalize removeSlotDeadline index { s with observer := o } = s' at *
  have hnone : s'.heapPosition index = none :=
    (heapPosition_none_iff hheap index).mpr fun entry hmem => ((hddls entry).mp hmem).2
  refine ⟨hcap, ?_, hobs, hready, hheap.congr rfl ?_ fun entry hmem => ?_, hddls⟩
  · rw [uses_releaseSlot, huses]
    rfl
  · funext i
    unfold heapPosition releaseSlot
    by_cases hi : index = i
    · subst hi
      rw [getElem?_modify_eq]
      unfold heapPosition at hnone
      rw [hnone]
      cases s'.slots[index]? <;> rfl
    · rw [getElem?_modify_ne _ _ hi]
  · obtain ⟨decoded, use', hdec, huse', hgen⟩ := hheap.live entry hmem
    refine ⟨decoded, use', hdec, ?_, hgen⟩
    have hne : index ≠ decoded.index := by
      intro heq
      obtain ⟨-, -, hidx, -⟩ := decodeToken_some hdec
      exact ((hddls entry).mp hmem).2 (heq ▸ hidx.symm)
    rw [uses_releaseSlot, getElem?_set_ne hne]
    exact huse'

theorem slot_of_wait (huse : s.uses[index]? = some use) (hwait : use.wait = some wait) :
    ∃ slot, s.slots[index]? = some slot ∧ slot.use = use ∧ slot.key = some wait.key ∧
      slot.kind = wait.kind ∧ slot.deadlineNs = wait.deadlineNs := by
  rw [getElem?_uses] at huse
  obtain ⟨slot, hslot, rfl⟩ := Option.map_eq_some_iff.mp huse
  obtain ⟨key, hkey, rfl⟩ := Option.map_eq_some_iff.mp hwait
  exact ⟨slot, hslot, rfl, hkey, rfl, rfl⟩

theorem removeReady_ready (h : s.Consistent) (huse : s.uses[index]? = some use) :
    (s.observer.removeReady (encodeToken index use.generation) index).ready =
      s.observer.ready.filter fun record => record.token ≠ encodeToken index use.generation := by
  obtain ⟨obs, hobs, hagree⟩ := h.observed huse
  unfold removeReady
  rw [hobs]
  by_cases hqueued : obs.queued = true
  · simp only [if_pos hqueued]
    exact eraseP_eq_filter h.ready_nodup _
  simp only [if_neg hqueued]
  symm
  rw [filter_eq_self]
  intro record hmem
  rw [decide_eq_true_eq]
  intro heq
  obtain ⟨i, obs', hobs', hqueued', htok⟩ := (h.ready_iff record.token).mp (mem_map_of_mem hmem)
  obtain ⟨use', huse', -⟩ := h.used hobs'
  obtain ⟨rfl, -⟩ := h.token_inj huse huse' (heq.symm.trans htok)
  cases hobs.symm.trans hobs'
  exact hqueued hqueued'

theorem removeReady_deactivate_slots (token : WaitToken) (index generation : Nat) (retired : Bool)
    (o : ObserverState) :
    ((o.removeReady token index).deactivate index generation retired).slots =
      o.slots.set index ⟨generation, retired, false, false⟩ := by
  unfold removeReady deactivate setQueued
  split
  · exact (set_eq_modify ..).symm
  · split
    · rw [← set_eq_modify, modify_eq_set (by assumption), set_set]
    · exact (set_eq_modify ..).symm

theorem cancel_gives (h : s.Consistent) (huse : s.uses[index]? = some use)
    (hwait : use.wait = some wait) :
    (s.cancel (encodeToken index use.generation)).1 = true ∧
      Gives s (s.cancel (encodeToken index use.generation)).2 index use := by
  obtain ⟨slot, hslot, rfl, hkey, -⟩ := slot_of_wait huse hwait
  have hdec := h.decode_use huse
  have hcond : (!slot.isActive || slot.generation != slot.use.generation) = false := by
    simp [WaitSlot.isActive, hkey, WaitSlot.use]
  unfold cancel
  simp only [hdec, hslot, hcond]
  exact ⟨rfl, gives_removeSlotDeadline h.heap (removeReady_deactivate_slots _ _ _ _ _)
    (removeReady_ready h huse)⟩

theorem nextWake_ready (h : s.Consistent) (nowNs : Nat) {record : ReadyRecord}
    {rest : List ReadyRecord} (hready : s.observer.ready = record :: rest) :
    ∃ index use wait, s.uses[index]? = some use ∧ use.wait = some wait ∧
      record.token = encodeToken index use.generation ∧
      (s.nextWake nowNs).1 = some (wait.wake record.token record.cause) ∧
      Gives s (s.nextWake nowNs).2 index use := by
  have hmem : record.token ∈ s.observer.ready.map (·.token) := by simp [hready]
  obtain ⟨index, observed, hobs, hqueued, htok⟩ := (h.ready_iff _).mp hmem
  obtain ⟨use, huse, hagree⟩ := h.used hobs
  obtain ⟨wait, hwait⟩ := Option.isSome_iff_exists.mp (hagree.queued_active hqueued)
  obtain ⟨slot, hslot, rfl, hkey, hkind, hddlNs⟩ := slot_of_wait huse hwait
  rw [hagree.generation] at htok
  refine ⟨index, slot.use, wait, huse, hwait, htok, ?_⟩
  have hact : observed.active = true := by rw [hagree.active, hwait]; rfl
  have hcond : (!observed.active || !observed.queued ||
      observed.generation != slot.use.generation) = false := by
    simp [hact, hqueued, hagree.generation]
  have hfilter : rest = s.observer.ready.filter fun other =>
      other.token ≠ encodeToken index slot.use.generation := by
    have hnodup := h.ready_nodup
    rw [hready] at hnodup ⊢
    rw [← eraseP_eq_filter hnodup, eraseP_cons_of_pos (by simp [htok])]
  have hdec : decodeToken record.token s.capacity = some ⟨index, slot.use.generation⟩ := by
    rw [htok, h.decode_use huse]
  have hgen : ¬slot.generation ≠ slot.use.generation := fun hne => hne rfl
  unfold nextWake nextWakeFrom
  rw [hready]
  simp only [popReady, hdec, hobs, hslot, hcond, hkey, if_neg hgen, Bool.false_eq_true, if_false]
  refine ⟨by simp only [Wait.wake, hkind, hddlNs], ?_⟩
  exact gives_removeSlotDeadline h.heap (set_eq_modify ..).symm hfilter

theorem popReady_nil (hready : s.observer.ready = []) : popReady [] s = (none, s) := by
  cases s with
  | mk capacity slots deadlines observer =>
    cases observer
    cases hready
    rfl

theorem nextWake_deadline (h : s.Consistent) {nowNs : Nat} {entry : DeadlineEntry}
    (hready : s.observer.ready = []) (hent : s.deadlines[0]? = some entry)
    (hdue : entry.deadlineNs ≤ nowNs) :
    ∃ index use wait, s.uses[index]? = some use ∧ use.wait = some wait ∧
      entry.token = encodeToken index use.generation ∧
      (s.nextWake nowNs).1 = some (wait.wake entry.token .deadline) ∧
      Gives s (s.nextWake nowNs).2 index use := by
  obtain ⟨wait, hfind, hddl⟩ := (h.deadlines_iff entry).mp (mem_of_getElem? hent)
  obtain ⟨index, use, huse, hwait, htok⟩ := (h.find_iff _ _).mp hfind
  obtain ⟨slot, hslot, rfl, hkey, hkind, hddlNs⟩ := slot_of_wait huse hwait
  refine ⟨index, slot.use, wait, huse, hwait, htok, ?_⟩
  have hdec : decodeToken entry.token s.capacity = some ⟨index, slot.use.generation⟩ := by
    rw [htok, h.decode_use huse]
  have hgen : ¬slot.generation ≠ slot.use.generation := fun hne => hne rfl
  have hhead : s.deadlines.head? = some entry := by rw [head?_eq_getElem?, hent]
  obtain ⟨fuel, hfuel⟩ : ∃ fuel, s.deadlines.length = fuel + 1 :=
    ⟨_, (Nat.succ_pred_eq_of_pos (Lib.lt_length hent)).symm⟩
  unfold nextWake nextWakeFrom
  rw [hready, popReady_nil hready, hfuel]
  simp only [hhead, if_neg (Nat.not_lt.mpr hdue), hdec, hslot, hkey, if_neg hgen]
  refine ⟨by simp only [Wait.wake, hkind, hddlNs], ?_⟩
  have hpos := h.heap.position_eq hent
  rw [h.slotIndex_eq huse htok] at hpos
  have hfilter : s.observer.ready = s.observer.ready.filter fun other =>
      other.token ≠ encodeToken index slot.use.generation := by
    rw [hready]
    rfl
  have hgives := gives_removeSlotDeadline h.heap (o := (s.observer.deactivate index
    (advancedGeneration slot.use.generation).1
    (advancedGeneration slot.use.generation).2).noteDeadlineWake) (set_eq_modify ..).symm hfilter
  simp only [removeSlotDeadline, show s.slots[index]?.bind WaitSlot.heapIndex = some 0 from hpos]
    at hgives
  exact hgives

/-- With an empty queue and no deadline due nothing is returned, and nothing changes. -/
theorem nextWake_idle {now : Nat} (hready : s.observer.ready = [])
    (hlate : ∀ entry, s.deadlines[0]? = some entry → now < entry.deadlineNs) :
    s.nextWake now = (none, s) := by
  unfold nextWake nextWakeFrom
  rw [hready, popReady_nil hready]
  cases hhead : s.deadlines.head? with
  | none => simp only [hhead]
  | some entry =>
    obtain ⟨fuel, hfuel⟩ : ∃ fuel, s.deadlines.length = fuel + 1 := by
      cases hddls : s.deadlines with
      | nil => simp [hddls] at hhead
      | cons first rest => exact ⟨rest.length, rfl⟩
    rw [head?_eq_getElem?] at hhead
    simp only [head?_eq_getElem?, hfuel, hhead, if_pos (hlate entry hhead)]

theorem nextWake_spec (h : s.Consistent) (now : Nat) :
    ((s.nextWake now).2.Consistent ∧ (s.nextWake now).2.capacity = s.capacity) ∧
      s.pool.Wakes now (s.nextWake now).1 ∧ (s.nextWake now).2.pool = match (s.nextWake now).1 with
        | some wake => s.pool.remove wake.token
        | none => s.pool := by
  cases hready : s.observer.ready with
  | cons record rest =>
    obtain ⟨index, use, wait, huse, hwait, htok, hwake, hgives⟩ := nextWake_ready h now hready
    refine ⟨⟨hgives.consistent h huse, hgives.capacity⟩, ?_, ?_⟩
    · rw [hwake]
      refine .ready hready ((h.find_iff _ _).mpr ⟨index, use, huse, hwait, htok⟩)
    · rw [hwake, hgives.pool_eq h.toTablesAgree huse hwait, ← htok]
      rfl
  | nil =>
    by_cases hdue : ∃ entry, s.deadlines[0]? = some entry ∧ entry.deadlineNs ≤ now
    · obtain ⟨entry, hent, hdue⟩ := hdue
      obtain ⟨index, use, wait, huse, hwait, htok, hwake, hgives⟩ :=
        nextWake_deadline h hready hent hdue
      have hfind : s.find entry.token = some wait :=
        (h.find_iff _ _).mpr ⟨index, use, huse, hwait, htok⟩
      obtain ⟨wait', hfind', hddl⟩ := (h.deadlines_iff entry).mp (mem_of_getElem? hent)
      rw [hfind] at hfind'
      cases hfind'
      refine ⟨⟨hgives.consistent h huse, hgives.capacity⟩, ?_, ?_⟩
      · rw [hwake]
        refine .deadline hready hfind hddl hdue fun token' wait' deadlineNs' hact hd => ?_
        obtain ⟨k, hk⟩ := mem_iff_getElem?.mp
          ((h.deadlines_iff ⟨deadlineNs', token'⟩).mpr ⟨wait', hact, hd⟩)
        exact h.heap.ordered.first_le hent hk
      · rw [hwake, hgives.pool_eq h.toTablesAgree huse hwait, ← htok]
        rfl
    · have hlate (entry : DeadlineEntry) (hent : s.deadlines[0]? = some entry) :
          now < entry.deadlineNs := Nat.lt_of_not_le fun hle => hdue ⟨entry, hent, hle⟩
      rw [nextWake_idle hready hlate]
      refine ⟨⟨h, rfl⟩, .none hready fun token wait deadlineNs hact hddl => ?_, rfl⟩
      have hmem := (h.deadlines_iff ⟨deadlineNs, token⟩).mpr ⟨wait, hact, hddl⟩
      obtain ⟨k, hk⟩ := mem_iff_getElem?.mp hmem
      have hfirst := getElem?_eq_getElem (length_pos_of_mem hmem)
      have hle := h.heap.ordered.first_le hfirst hk
      have hlate := hlate _ hfirst
      rcases Prod.Lex.le_iff.mp hle with hlt | ⟨heq, -⟩
      · exact hlate.trans hlt
      · exact hlate.trans_le (le_of_eq heq)

end Paths

variable {s : WaitRuntime K} {token : WaitToken} {wait : Wait K} {slot : WaitSlot K}

section

variable (h : s.Consistent) {index : Nat}
include h

theorem cancel_spec (hfind : s.find token = some wait) : (s.cancel token).1 = true ∧
      ((s.cancel token).2.Consistent ∧ (s.cancel token).2.capacity = s.capacity) ∧
      (s.cancel token).2.pool = s.pool.remove token := by
  obtain ⟨index, use, huse, hwait, rfl⟩ := (h.find_iff _ _).mp hfind
  obtain ⟨hreply, hgives⟩ := cancel_gives h huse hwait
  exact ⟨hreply, ⟨hgives.consistent h huse, hgives.capacity⟩,
    hgives.pool_eq h.toTablesAgree huse hwait⟩

omit h in
theorem cancel_stale (hfind : s.find token = none) : s.cancel token = (false, s) := by
  unfold cancel
  cases hdec : decodeToken token s.capacity with
  | none => rfl
  | some dec =>
    cases hslot : s.slots[dec.index]? with
    | none => simp only [hslot]
    | some slot =>
      simp only [hslot]
      rw [if_pos]
      simp only [find, hdec, getElem?_uses, hslot, Option.bind_some, Option.map_some] at hfind
      by_cases hgen : slot.use.generation = dec.generation
      · rw [if_pos hgen] at hfind
        have hkey : slot.key = none := Option.map_eq_none_iff.mp hfind
        simp [WaitSlot.isActive, hkey]
      · have hne : slot.generation ≠ dec.generation := hgen
        simp [hne]

theorem tokenForKey_spec [DecidableEq K] {key : K} (hfound : s.tokenForKey key = some token) :
    ∃ wait, s.find token = some wait ∧ wait.key = key := by
  unfold tokenForKey at hfound
  obtain ⟨⟨slot, index⟩, hmem, hsome⟩ := exists_of_findSome?_eq_some hfound
  have hslot := mem_zipIdx_iff_getElem?.mp hmem
  by_cases hkey : slot.key = some key
  · simp only [if_pos hkey] at hsome
    cases hsome
    refine ⟨⟨key, slot.kind, slot.deadlineNs⟩, (h.find_iff _ _).mpr ⟨index, slot.use, ?_, ?_, rfl⟩,
      rfl⟩
    · rw [getElem?_uses]
      exact congrArg (Option.map WaitSlot.use) hslot
    · simp [WaitSlot.use, hkey]
  · simp only [if_neg hkey] at hsome
    cases hsome

theorem tokenForKey_none [DecidableEq K] {key : K}
    (hnone : s.tokenForKey key = none) (hfind : s.find token = some wait) : wait.key ≠ key := by
  obtain ⟨index, use, huse, hwait, -⟩ := (h.find_iff _ _).mp hfind
  obtain ⟨slot, hslot, rfl, hkey, -⟩ := slot_of_wait huse hwait
  rintro rfl
  have hall := findSome?_eq_none_iff.mp hnone (slot, index) (mem_zipIdx_iff_getElem?.mpr hslot)
  simp only [if_pos hkey] at hall
  cases hall

/-- The observer's table may be replaced by one that agrees with the slots and the queue. -/
theorem Consistent.withObserver (hlen : o.slots.length = s.observer.slots.length)
    (hagree : ∀ (i : Nat) (use : SlotUse K) (obs : ObserverSlot), s.uses[i]? = some use →
      o.slots[i]? = some obs → SlotsAgree use obs)
    (hnodup : (o.ready.map (·.token)).Nodup) (hready : ∀ token, token ∈ o.ready.map (·.token) ↔
      ∃ (i : Nat) (obs : ObserverSlot), o.slots[i]? = some obs ∧
        obs.queued = true ∧ token = encodeToken i obs.generation) :
    Consistent { s with observer := o } where
  capacity_le := h.capacity_le
  uses_length := h.uses_length
  observer_length := hlen.trans h.observer_length
  agree := hagree
  ready_nodup := hnodup
  ready_iff := hready
  heap := h.heap.withObserver o
  deadlines_iff := h.deadlines_iff

theorem Consistent.noted
    (hslots : o.slots = s.observer.slots) (hready : o.ready = s.observer.ready) :
    Consistent { s with observer := o } ∧ pool { s with observer := o } = s.pool := by
  refine ⟨h.withObserver (by rw [hslots]) ?_ ?_ ?_, ?_⟩
  · rw [hslots]
    exact h.agree
  · rw [hready]
    exact h.ready_nodup
  · rw [hslots, hready]
    exact h.ready_iff
  · exact congrArg (Pool.mk _ _) hready

theorem notify_stale (hfind : s.find token = none) (cause : WakeCause) :
    s.notify token cause = (false, { s with observer := s.observer.noteStale }) := by
  unfold notify ObserverState.notify
  rw [h.observer_length]
  cases hdec : decodeToken token s.capacity with
  | none => rfl
  | some dec =>
    obtain ⟨hidx, -, -, -⟩ := decodeToken_some hdec
    have hobs := getElem?_eq_getElem (h.observer_length.symm ▸ hidx)
    obtain ⟨use, huse, hagree⟩ := h.used hobs
    simp only [hobs]
    rw [if_pos]
    simp only [find, hdec, huse, Option.bind_some] at hfind
    by_cases hgen : use.generation = dec.generation
    · rw [if_pos hgen] at hfind
      simp [hagree.active, hfind]
    · simp [hagree.generation, hgen]

theorem notify_spec (hfind : s.find token = some wait) {cause : WakeCause}
    (hcause : cause ≠ .deadline) :
    (s.notify token cause).1 = true ∧ (s.notify token cause).2.Consistent ∧
      Pool.Step s.pool [.notified token cause] (s.notify token cause).2.pool := by
  obtain ⟨index, use, huse, hwait, htok⟩ := (h.find_iff _ _).mp hfind
  obtain ⟨observed, hobs, hagree⟩ := h.observed huse
  have hact : observed.active = true := by rw [hagree.active, hwait]; rfl
  have hret : observed.retired = false := by
    rw [hagree.retired]
    exact hagree.active_retired (by rw [hwait]; rfl)
  have hcond : (!observed.active || observed.retired ||
      observed.generation != use.generation) = false := by
    simp [hact, hret, hagree.generation]
  have hdec : decodeToken token s.observer.slots.length = some ⟨index, use.generation⟩ := by
    rw [h.observer_length, htok, h.decode_use huse]
  have hnote : (s.observer.noteCause cause).slots = s.observer.slots ∧
      (s.observer.noteCause cause).ready = s.observer.ready := by
    cases cause <;> exact ⟨rfl, rfl⟩
  have hqueued_iff : token ∈ s.observer.ready.map (·.token) ↔ observed.queued = true := by
    rw [h.ready_iff]
    constructor
    · rintro ⟨i, observed', hobs', hqueued', htok'⟩
      obtain ⟨use', huse', -⟩ := h.used hobs'
      obtain ⟨rfl, -⟩ := h.token_inj huse huse' (htok.symm.trans htok')
      cases hobs.symm.trans hobs'
      exact hqueued'
    · intro hqueued
      exact ⟨index, observed, hobs, hqueued, by rw [hagree.generation]; exact htok⟩
  unfold notify ObserverState.notify
  simp only [hdec, hobs, hcond, Bool.false_eq_true, if_false]
  by_cases hqueued : observed.queued = true
  · simp only [if_pos hqueued, true_and]
    obtain ⟨hcons, hpool⟩ := h.noted (o := (s.observer.noteCause cause).noteCoalesced)
      hnote.1 hnote.2
    rw [hpool]
    exact ⟨hcons, .coalesced hfind (hqueued_iff.mpr hqueued)⟩
  · have hfresh : token ∉ s.observer.ready.map (·.token) := fun hmem =>
      hqueued (hqueued_iff.mp hmem)
    have hslots : (((s.observer.noteCause cause).setQueued index true).pushReady
        ⟨token, cause⟩).slots = s.observer.slots.set index { observed with queued := true } := by
      simp only [pushReady, setQueued, hnote.1]
      exact modify_eq_set hobs _
    have hready : (((s.observer.noteCause cause).setQueued index true).pushReady
        ⟨token, cause⟩).ready = s.observer.ready ++ [⟨token, cause⟩] := by
      simp only [pushReady, setQueued, hnote.2]
    simp only [if_neg hqueued, true_and]
    refine ⟨h.withObserver ?_ ?_ ?_ ?_, ?_⟩
    · rw [hslots, length_set]
    · intro i use' observed' huse' hobs'
      rw [hslots, getElem?_set_iff hobs] at hobs'
      rcases hobs' with ⟨rfl, rfl⟩ | ⟨-, hobs'⟩
      · cases huse.symm.trans huse'
        exact { hagree with queued_active := fun _ => by rw [hwait]; rfl }
      · exact h.agree i use' observed' huse' hobs'
    · rw [hready, map_append, nodup_append]
      refine ⟨h.ready_nodup, nodup_singleton _, ?_⟩
      rintro a ha b hb rfl
      rw [mem_singleton.mp hb] at ha
      exact hfresh ha
    · intro token'
      simp only [hready, hslots, map_append, mem_append, h.ready_iff, getElem?_set_iff hobs]
      constructor
      · rintro (⟨i, observed', hobs', hqueued', rfl⟩ | hmem)
        · refine ⟨i, observed', .inr ⟨?_, hobs'⟩, hqueued', rfl⟩
          rintro rfl
          cases hobs.symm.trans hobs'
          exact hqueued hqueued'
        · refine ⟨index, { observed with queued := true }, .inl ⟨rfl, rfl⟩, rfl, ?_⟩
          rw [mem_singleton.mp hmem, hagree.generation]
          exact htok
      · rintro ⟨i, observed', ⟨rfl, rfl⟩ | ⟨-, hobs'⟩, hqueued', rfl⟩
        · refine .inr (mem_singleton.mpr ?_)
          rw [hagree.generation]
          exact htok.symm
        · exact .inl ⟨i, observed', hobs', hqueued', rfl⟩
    · have hstep : Pool.Step s.pool [.notified token cause]
          { s.pool with ready := s.observer.ready ++ [⟨token, cause⟩] } :=
        .notified hfind hcause hfresh
      rw [← hready] at hstep
      exact hstep

/-! ## Registration -/

omit h in
theorem uses_fillSlot (hslot : s.slots[index]? = some slot) (wait : Wait K) :
    (s.fillSlot index wait.key wait.kind wait.deadlineNs).uses =
      s.uses.set index ⟨slot.generation, slot.retired, some wait⟩ := by
  unfold uses fillSlot
  rw [modify_eq_set hslot, map_set]
  rfl

omit h in
theorem occupySlot_frame (index : Nat) (wait : Wait K) (token : WaitToken) (s : WaitRuntime K) :
    (s.occupySlot index wait.key wait.kind wait.deadlineNs token).uses =
        (s.fillSlot index wait.key wait.kind wait.deadlineNs).uses ∧
      (s.occupySlot index wait.key wait.kind wait.deadlineNs token).capacity = s.capacity ∧
      (s.occupySlot index wait.key wait.kind wait.deadlineNs token).observer = s.observer := by
  cases wait.deadlineNs with
  | none => exact ⟨rfl, rfl, rfl⟩
  | some deadlineNs =>
    exact (Prod.ext_iff.mp (rest_unaffected.push _ _)).imp_right Prod.ext_iff.mp

theorem heapPosition_free {use : SlotUse K}
    (huse : s.uses[index]? = some use) (hfree : use.wait = none) : s.heapPosition index = none := by
  refine (heapPosition_none_iff h.heap index).mpr fun entry hmem heq => ?_
  obtain ⟨wait, hfind, -⟩ := (h.deadlines_iff entry).mp hmem
  obtain ⟨i, use', huse', hwait, htok⟩ := (h.find_iff _ _).mp hfind
  rw [h.slotIndex_eq huse' htok] at heq
  subst heq
  cases huse.symm.trans huse'
  rw [hfree] at hwait
  cases hwait

theorem occupySlot_heap (hslot : s.slots[index]? = some slot)
    (hfree : slot.key = none) (wait : Wait K) :
    (s.occupySlot index wait.key wait.kind wait.deadlineNs
        (encodeToken index slot.generation)).HeapIndexed ∧
      ∀ entry, entry ∈ (s.occupySlot index wait.key wait.kind wait.deadlineNs
          (encodeToken index slot.generation)).deadlines ↔
        entry ∈ s.deadlines ∨ wait.deadlineNs = some entry.deadlineNs ∧
          entry.token = encodeToken index slot.generation := by
  have huse : s.uses[index]? = some slot.use := by rw [getElem?_uses, hslot]; rfl
  have hnone := heapPosition_free h huse (by simp [WaitSlot.use, hfree])
  have huses := uses_fillSlot hslot wait
  have hlt := Lib.lt_length huse
  have hfilled : (s.fillSlot index wait.key wait.kind wait.deadlineNs).uses[index]? =
      some ⟨slot.generation, slot.retired, some wait⟩ := by
    rw [huses, getElem?_set_self hlt]
  have hpos : (s.fillSlot index wait.key wait.kind wait.deadlineNs).heapPosition =
      s.heapPosition := by
    funext i
    unfold fillSlot heapPosition
    by_cases hi : index = i
    · subst hi
      unfold heapPosition at hnone
      rw [getElem?_modify_eq, hnone, hslot]
      rfl
    · rw [getElem?_modify_ne _ _ hi]
  have hbase : (s.fillSlot index wait.key wait.kind wait.deadlineNs).HeapIndexed := by
    refine h.heap.congr rfl hpos fun entry hmem => ?_
    obtain ⟨dec, use', hdec, huse', hgen⟩ := h.heap.live entry hmem
    by_cases hi : dec.index = index
    · rw [hi, huse] at huse'
      cases huse'
      exact ⟨dec, ⟨slot.generation, slot.retired, some wait⟩, hdec, by rw [hi]; exact hfilled, hgen⟩
    · exact ⟨dec, use', hdec, by rw [huses, getElem?_set_ne (Ne.symm hi)]; exact huse', hgen⟩
  unfold occupySlot
  cases hddl : wait.deadlineNs with
  | none =>
    rw [hddl] at hbase
    refine ⟨hbase, fun entry => ?_⟩
    simp [fillSlot]
  | some deadlineNs =>
    rw [hddl] at hbase hpos hfilled
    have hdec := h.decode_use huse
    obtain ⟨hindexed, hperm⟩ := IndexedHeap.push_spec deadlineHeap_lawful hbase
      (e := ⟨deadlineNs, encodeToken index slot.generation⟩) ⟨_, _, hdec, hfilled, rfl⟩ (by
        rw [hpos, h.slotIndex_eq huse rfl]
        exact hnone)
    refine ⟨hindexed, fun entry => ?_⟩
    refine hperm.mem_iff.trans ?_
    rw [mem_cons, or_comm]
    refine or_congr Iff.rfl ?_
    cases entry
    simp [eq_comm]

end

/-- The free slot `index` takes a wait. -/
structure Takes (s s' : WaitRuntime K) (index : Nat) (use : SlotUse K) (wait : Wait K) : Prop where
  capacity : s'.capacity = s.capacity
  uses : s'.uses = s.uses.set index ⟨use.generation, use.retired, some wait⟩
  observed : s'.observer.slots = s.observer.slots.modify index fun slot =>
    { slot with active := true }
  ready : s'.observer.ready = s.observer.ready
  heap : s'.HeapIndexed
  deadlines : ∀ entry, entry ∈ s'.deadlines ↔ entry ∈ s.deadlines ∨
    wait.deadlineNs = some entry.deadlineNs ∧ entry.token = encodeToken index use.generation

section Takes

variable {s' : WaitRuntime K} {index : Nat} {use : SlotUse K}

section

variable (h : s.TablesAgree) (htakes : Takes s s' index use wait) (huse : s.uses[index]? = some use)
include h htakes huse

theorem Takes.tablesAgree (hret : use.retired = false) : s'.TablesAgree := by
  obtain ⟨obs, hobs, hagree⟩ := h.observed huse
  refine h.set huse htakes.uses htakes.capacity hobs
    (htakes.observed.trans (modify_eq_set hobs _)) ?_
  exact { hagree with
    active := rfl, active_retired := fun _ => hret, queued_active := fun _ => rfl }

theorem Takes.find (hfree : use.wait = none) (hret : use.retired = false)
    (token : WaitToken) (found : Wait K) :
    s'.find token = some found ↔
      s.find token = some found ∨ token = encodeToken index use.generation ∧ wait = found := by
  rw [h.find_set huse htakes.uses (htakes.tablesAgree h huse hret), Option.some_inj]
  refine or_congr_left (and_iff_left_of_imp ?_)
  rintro hfind rfl
  exact nomatch (h.find_none huse hfree).symm.trans hfind

theorem Takes.spent (hret : use.retired = false) (token : WaitToken) :
    s'.Spent token ↔ s.Spent token := by
  rw [h.spent_set huse htakes.uses (htakes.tablesAgree h huse hret)
    fun generation => (or_iff_right id).symm]
  exact or_iff_right fun hfalse => hfalse.choose_spec.2.1

theorem Takes.step (hfree : use.wait = none) (hret : use.retired = false) :
    Pool.Step s.pool [.registered (encodeToken index use.generation) wait] s'.pool := by
  have hnone := h.find_none huse hfree
  have hunspent : ¬s.Spent (encodeToken index use.generation) := by
    rw [h.spent_iff]
    rintro ⟨i, use', generation, huse', hpos, htok, hor⟩
    obtain ⟨rfl, rfl⟩ := h.token_inj huse huse' htok
    cases huse.symm.trans huse'
    simp [hret] at hor
  have hpool : s'.pool = { s.pool with
      active := Function.update s.pool.active (encodeToken index use.generation) (some wait) } := by
    unfold pool
    congr 1
    · funext token
      apply Option.ext
      intro found
      rw [htakes.find h huse hfree hret]
      by_cases heq : token = encodeToken index use.generation
      · subst heq
        simp [hnone]
      · simp [heq]
    · ext token
      exact htakes.spent h huse hret token
    · exact htakes.ready
  rw [hpool]
  exact .registered wait hnone hunspent

end

theorem Takes.consistent (h : s.Consistent) (htakes : Takes s s' index use wait)
    (huse : s.uses[index]? = some use) (hfree : use.wait = none)
    (hret : use.retired = false) : s'.Consistent := by
  have h' := htakes.tablesAgree h.toTablesAgree huse hret
  refine { h' with ready_nodup := ?_, ready_iff := ?_, heap := htakes.heap, deadlines_iff := ?_ }
  · rw [htakes.ready]
    exact h.ready_nodup
  · intro token
    rw [htakes.ready, h.ready_iff, htakes.observed]
    have hslot i : (∃ obs : ObserverSlot, s.observer.slots[i]? = some obs ∧
        obs.queued = true ∧ token = encodeToken i obs.generation) ↔
        ∃ obs : ObserverSlot, (s.observer.slots.modify index fun slot =>
          { slot with active := true })[i]? = some obs ∧ obs.queued = true ∧
          token = encodeToken i obs.generation := by
      by_cases hi : i = index
      · subst hi
        rw [getElem?_modify_eq]
        cases s.observer.slots[i]? <;> simp
      · rw [getElem?_modify_ne _ _ (Ne.symm hi)]
    exact exists_congr hslot
  · intro entry
    rw [htakes.deadlines, h.deadlines_iff]
    simp only [htakes.find h.toTablesAgree huse hfree hret]
    constructor
    · rintro (⟨found, hfind, hddl⟩ | ⟨hddl, htok⟩)
      · exact ⟨found, .inl hfind, hddl⟩
      · exact ⟨wait, .inr ⟨htok, rfl⟩, hddl⟩
    · rintro ⟨found, hfind | ⟨htok, rfl⟩, hddl⟩
      · exact .inl ⟨found, hfind, hddl⟩
      · exact .inr ⟨hddl, htok⟩

end Takes

theorem register_spec (h : s.Consistent) (wait : Wait K)
    (hfree : s.slots.findIdx? (fun slot => !slot.isActive && !slot.retired) = some index) :
    ∃ token, (s.register wait.key wait.kind wait.deadlineNs).1 = .ok token ∧
      ((s.register wait.key wait.kind wait.deadlineNs).2.Consistent ∧
        (s.register wait.key wait.kind wait.deadlineNs).2.capacity = s.capacity) ∧
      Pool.Step s.pool [.registered token wait]
        (s.register wait.key wait.kind wait.deadlineNs).2.pool := by
  obtain ⟨slot, hslot, hkey, hret⟩ :
      ∃ slot, s.slots[index]? = some slot ∧ slot.key = none ∧ slot.retired = false := by
    simpa [WaitSlot.isActive] using exists_of_findIdx? hfree
  have huse : s.uses[index]? = some slot.use := by rw [getElem?_uses, hslot]; rfl
  have hwait : slot.use.wait = none := by simp [WaitSlot.use, hkey]
  obtain ⟨huses, hcap, hobserver⟩ :=
    occupySlot_frame index wait (encodeToken index slot.generation) s
  obtain ⟨hheap, hddls⟩ := occupySlot_heap h hslot hkey wait
  have htakes : Takes s { s.occupySlot index wait.key wait.kind wait.deadlineNs
      (encodeToken index slot.generation) with
      observer := (s.occupySlot index wait.key wait.kind wait.deadlineNs
        (encodeToken index slot.generation)).observer.activate index } index slot.use wait := by
    refine ⟨hcap, huses.trans (uses_fillSlot hslot wait), ?_, ?_, hheap.withObserver _, hddls⟩
    · rw [hobserver]
      rfl
    · rw [hobserver]
      rfl
  refine ⟨encodeToken index slot.generation, ?_⟩
  unfold register
  simp only [hfree, hslot, true_and]
  exact ⟨⟨htakes.consistent h huse hwait hret, hcap⟩, htakes.step h.toTablesAgree huse hwait hret⟩

end WaitRuntime

end Ginkgo.Kernel
