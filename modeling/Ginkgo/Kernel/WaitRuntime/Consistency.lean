import Ginkgo.Kernel.WaitRuntime.Pool

/-!
# The four tables agree

The slots of the dispatcher, the slots of the observer, the ready queue and the deadline
heap describe the same waits.  What a slot is used for does not depend on its place in the
heap, so that the heap's operations are invisible but for the heap itself.
-/

namespace Ginkgo.Kernel

open Ginkgo.Ipc Ginkgo.Lib List

variable {K : Type}

theorem tokenIndex_encodeToken {index : Nat} (generation : Nat) (h : index < u32Max) :
    ((encodeToken index generation).raw &&& tokenIndexMask) - 1 = index := by
  rw [show (encodeToken index generation).raw &&& tokenIndexMask = index + 1 from
    packTag_and_tagMask generation h, Nat.add_sub_cancel]

theorem decodeToken_encodeToken {index generation capacity : Nat} (hidx : index < capacity)
    (hcap : capacity ≤ u32Max) (hgen : 0 < generation) :
    decodeToken (encodeToken index generation) capacity = some ⟨index, generation⟩ := by
  have hlt := hidx.trans_le hcap
  unfold decodeToken encodeToken
  rw [packTag_and_tagMask generation hlt, packTag_shiftRight generation hlt]
  rw [if_neg (by omega), if_neg (by omega)]
  rfl

theorem decodeToken_some {token : WaitToken} {capacity : Nat} {decoded : DecodedToken}
    (h : decodeToken token capacity = some decoded) :
    decoded.index < capacity ∧ 0 < decoded.generation ∧
      decoded.index = (token.raw &&& tokenIndexMask) - 1 ∧
      token = encodeToken decoded.index decoded.generation := by
  unfold decodeToken at h
  simp only at h
  split at h
  · cases h
  rename_i hzero
  rw [not_or] at hzero
  split at h
  · cases h
  · rename_i hidx
    cases h
    exact ⟨Nat.lt_of_not_ge hidx, Nat.pos_of_ne_zero hzero.2, rfl,
      WaitToken.ext (packTag_unpack hzero.1).symm⟩

/-- A slot but for its place in the heap. -/
structure SlotUse (K : Type) where
  generation : Nat
  retired : Bool
  wait : Option (Wait K)

def WaitSlot.use (slot : WaitSlot K) : SlotUse K :=
  ⟨slot.generation, slot.retired, slot.key.map (⟨·, slot.kind, slot.deadlineNs⟩)⟩

namespace WaitRuntime

def uses (s : WaitRuntime K) : List (SlotUse K) := s.slots.map WaitSlot.use

theorem getElem?_uses (s : WaitRuntime K) (i : Nat) : s.uses[i]? = s.slots[i]?.map WaitSlot.use :=
  getElem?_map

/-- The wait a token names. -/
def find (token : WaitToken) (s : WaitRuntime K) : Option (Wait K) :=
  (decodeToken token s.capacity).bind fun decoded =>
    (s.uses[decoded.index]?).bind fun use =>
      if use.generation = decoded.generation then use.wait else none

/-- The token named a wait before. -/
def Spent (token : WaitToken) (s : WaitRuntime K) : Prop :=
  ∃ decoded use, decodeToken token s.capacity = some decoded ∧ s.uses[decoded.index]? = some use ∧
    (decoded.generation < use.generation ∨ decoded.generation = use.generation ∧ use.retired = true)

/-! ## The heap -/

def slotIndex (entry : DeadlineEntry) : Nat := (entry.token.raw &&& tokenIndexMask) - 1

def heapPosition (s : WaitRuntime K) (index : Nat) : Option Nat :=
  (s.slots[index]?).bind WaitSlot.heapIndex

/-- The entry's token is the current one of its slot. -/
def Current (s : WaitRuntime K) (entry : DeadlineEntry) : Prop :=
  ∃ decoded use, decodeToken entry.token s.capacity = some decoded ∧
    s.uses[decoded.index]? = some use ∧ use.generation = decoded.generation

theorem uses_setHeapIndex (index : Nat) (position : Option Nat) (s : WaitRuntime K) :
    (s.setHeapIndex index position).uses = s.uses := by
  unfold setHeapIndex uses
  apply ext_getElem?
  intro i
  simp only [getElem?_map, getElem?_modify]
  cases s.slots[i]? with
  | none => rfl
  | some slot => by_cases hi : index = i <;> simp [hi, WaitSlot.use]

theorem setPosition_cases (entry : DeadlineEntry) (position : Option Nat) (s : WaitRuntime K) :
    deadlineHeap.setPosition entry position s = s ∨ deadlineHeap.setPosition entry position s =
        s.setHeapIndex (slotIndex entry) position := by
  simp only [deadlineHeap]
  cases hdec : decodeToken entry.token s.capacity with
  | none => exact .inl rfl
  | some decoded =>
    obtain ⟨-, -, hidx, -⟩ := decodeToken_some hdec
    unfold slotIndex
    rw [← hidx]
    cases position with
    | some heapIdx => exact .inr rfl
    | none =>
      simp only
      split
      · exact .inl rfl
      · split
        · exact .inr rfl
        · exact .inl rfl

theorem rest_unaffected : IndexedHeap.Unaffected deadlineHeap
    fun s : WaitRuntime K => (s.uses, s.capacity, s.observer) := by
  refine ⟨fun _ _ => rfl, fun entry position s => ?_⟩
  rcases setPosition_cases entry position s with heq | heq
  · rw [heq]
  · rw [heq]
    exact congrArg (·, s.capacity, s.observer) (uses_setHeapIndex _ _ s)

theorem deadlineHeap_lawful :
    IndexedHeap.Lawful (deadlineHeap (K := K)) slotIndex heapPosition Current where
  entries_withEntries _ _ := rfl
  entries_setPosition entry position s := by
    rcases setPosition_cases entry position s with heq | heq <;> rw [heq]
    rfl
  position_withEntries _ _ := rfl
  position_self entry position s hcurrent := by
    obtain ⟨decoded, use, hdec, huse, hgen⟩ := hcurrent
    obtain ⟨-, -, hidx, -⟩ := decodeToken_some hdec
    rw [getElem?_uses, Option.map_eq_some_iff] at huse
    obtain ⟨slot, hslot, rfl⟩ := huse
    have hset : deadlineHeap.setPosition entry position s =
        s.setHeapIndex decoded.index position := by
      cases position with
      | some heapIdx => simp only [deadlineHeap, hdec]
      | none =>
        simp only [deadlineHeap, hdec, hslot]
        exact if_pos hgen
    rw [hset]
    unfold heapPosition slotIndex setHeapIndex
    rw [← hidx]
    rw [getElem?_modify_eq, hslot]
    rfl
  position_of_ne entry position s index hne := by
    rcases setPosition_cases entry position s with heq | heq
    · rw [heq]
    · rw [heq]
      unfold heapPosition setHeapIndex
      rw [getElem?_modify_ne _ _ (Ne.symm hne)]
  live_withEntries _ _ := rfl
  live_setPosition entry position s := by
    have hrest := rest_unaffected.2 entry position s
    simp only [Prod.mk.injEq] at hrest
    unfold Current
    rw [hrest.1, hrest.2.1]

/-- The heap is in order, and the slots know the places of their entries. -/
abbrev HeapIndexed (s : WaitRuntime K) : Prop :=
  IndexedHeap.Indexed deadlineHeap DeadlineEntry.orderingKey slotIndex heapPosition Current s

/-! ## Consistency -/

/-- The two tables' views of one slot. -/
structure SlotsAgree (use : SlotUse K) (observed : ObserverSlot) : Prop where
  generation : observed.generation = use.generation
  retired : observed.retired = use.retired
  active : observed.active = use.wait.isSome
  generation_pos : 0 < use.generation
  generation_le : use.generation ≤ u32Max
  active_retired : use.wait.isSome = true → use.retired = false
  queued_active : observed.queued = true → use.wait.isSome = true

/-- The two slot tables agree. -/
structure TablesAgree (s : WaitRuntime K) : Prop where
  capacity_le : s.capacity ≤ u32Max
  uses_length : s.uses.length = s.capacity
  observer_length : s.observer.slots.length = s.capacity
  agree : ∀ (i : Nat) (use : SlotUse K) (observed : ObserverSlot), s.uses[i]? = some use →
    s.observer.slots[i]? = some observed → SlotsAgree use observed

structure Consistent (s : WaitRuntime K) : Prop extends s.TablesAgree where
  ready_nodup : (s.observer.ready.map (·.token)).Nodup
  ready_iff : ∀ token, token ∈ s.observer.ready.map (·.token) ↔
    ∃ (i : Nat) (observed : ObserverSlot), s.observer.slots[i]? = some observed ∧
      observed.queued = true ∧ token = encodeToken i observed.generation
  heap : s.HeapIndexed
  deadlines_iff : ∀ entry, entry ∈ s.deadlines ↔
    ∃ wait, s.find entry.token = some wait ∧ wait.deadlineNs = some entry.deadlineNs

namespace TablesAgree

variable {s : WaitRuntime K} {i : Nat}

variable (h : s.TablesAgree) {use : SlotUse K}
include h

theorem index_lt (huse : s.uses[i]? = some use) : i < s.capacity := by
  rw [← h.uses_length]
  exact Lib.lt_length huse

theorem observed (huse : s.uses[i]? = some use) :
    ∃ observed, s.observer.slots[i]? = some observed ∧ SlotsAgree use observed := by
  have hlt : i < s.observer.slots.length := by
    rw [h.observer_length]
    exact h.index_lt huse
  have hobs := getElem?_eq_getElem hlt
  exact ⟨_, hobs, h.agree i use _ huse hobs⟩

theorem used {observed : ObserverSlot} (hobs : s.observer.slots[i]? = some observed) :
    ∃ use, s.uses[i]? = some use ∧ SlotsAgree use observed := by
  have hlt : i < s.uses.length := by
    rw [h.uses_length, ← h.observer_length]
    exact Lib.lt_length hobs
  have huse := getElem?_eq_getElem hlt
  exact ⟨_, huse, h.agree i _ observed huse hobs⟩

theorem decode_use (huse : s.uses[i]? = some use) :
    decodeToken (encodeToken i use.generation) s.capacity = some ⟨i, use.generation⟩ := by
  obtain ⟨_, -, hagree⟩ := h.observed huse
  exact decodeToken_encodeToken (h.index_lt huse) h.capacity_le hagree.generation_pos

theorem token_inj {j : Nat} {use use' : SlotUse K}
    (huse : s.uses[i]? = some use) (huse' : s.uses[j]? = some use') {generation generation' : Nat}
    (heq : encodeToken i generation = encodeToken j generation') :
    i = j ∧ generation = generation' :=
  packTag_inj ((h.index_lt huse).trans_le h.capacity_le)
    ((h.index_lt huse').trans_le h.capacity_le) (congrArg WaitToken.raw heq)

theorem find_iff (token : WaitToken) (wait : Wait K) :
    s.find token = some wait ↔ ∃ (i : Nat) (use : SlotUse K),
      s.uses[i]? = some use ∧ use.wait = some wait ∧
      token = encodeToken i use.generation := by
  unfold find
  constructor
  · intro hfind
    obtain ⟨decoded, hdec, hfind⟩ := Option.bind_eq_some_iff.mp hfind
    obtain ⟨use, huse, hfind⟩ := Option.bind_eq_some_iff.mp hfind
    obtain ⟨-, -, -, htok⟩ := decodeToken_some hdec
    by_cases hgen : use.generation = decoded.generation
    · rw [if_pos hgen] at hfind
      exact ⟨decoded.index, use, huse, hfind, by rw [hgen]; exact htok⟩
    · rw [if_neg hgen] at hfind
      cases hfind
  · rintro ⟨i, use, huse, hwait, rfl⟩
    rw [h.decode_use huse]
    simp [huse, hwait]

theorem spent_iff (token : WaitToken) :
    s.Spent token ↔ ∃ (i : Nat) (use : SlotUse K) (generation : Nat), s.uses[i]? = some use ∧
      0 < generation ∧ token = encodeToken i generation ∧
      (generation < use.generation ∨ generation = use.generation ∧ use.retired = true) := by
  constructor
  · rintro ⟨decoded, use, hdec, huse, hor⟩
    obtain ⟨-, hpos, -, htok⟩ := decodeToken_some hdec
    exact ⟨decoded.index, use, decoded.generation, huse, hpos, htok, hor⟩
  · rintro ⟨i, use, generation, huse, hpos, rfl, hor⟩
    exact ⟨⟨i, generation⟩, use,
      decodeToken_encodeToken (h.index_lt huse) h.capacity_le hpos, huse, hor⟩

end TablesAgree

namespace Consistent

variable {s : WaitRuntime K}

theorem ready_length_le (h : s.Consistent) : s.observer.ready.length ≤ s.capacity := by
  have hsub : s.observer.ready.map (·.token) ⊆
      s.observer.slots.zipIdx.map fun (observed, i) => encodeToken i observed.generation := by
    intro token hmem
    obtain ⟨i, observed, hobs, -, rfl⟩ := (h.ready_iff token).mp hmem
    exact mem_map.mpr ⟨(observed, i), mem_zipIdx_iff_getElem?.mpr hobs, rfl⟩
  have hle := (h.ready_nodup.subperm hsub).length_le
  rwa [length_map, length_map, length_zipIdx, h.observer_length] at hle

end Consistent

end WaitRuntime

end Ginkgo.Kernel
