import Ginkgo.Lib.Vectors
import Ginkgo.Lib.Fallible
import Ginkgo.Ipc.Types

/-!
# Process-local handle tables

A table is a list of generation-tagged slots.  Its operations are pure functions of
the table; what happens to the objects behind the entries is decided one level up.
-/

namespace Ginkgo.Ipc

open Ginkgo.Lib Ginkgo.Sysapi List

structure HandleSlot where
  generation : Nat
  entry : Option HandleEntry
  deriving DecidableEq, Repr

namespace HandleSlot

def vacant : HandleSlot := ⟨1, none⟩

/-- A slot at the last generation is retired instead of wrapping. -/
def advanceGeneration (slot : HandleSlot) : HandleSlot :=
  if slot.generation = handleGenerationMask then { slot with generation := 0 }
  else { slot with generation := slot.generation + 1 }

/-- Vacant and not retired. -/
def free (slot : HandleSlot) : Bool := slot.entry.isNone && slot.generation != 0

end HandleSlot

structure HandleTable where
  slots : List HandleSlot
  deriving DecidableEq, Repr

namespace HandleTable

variable {t : HandleTable} {handle : Handle} {index generation : Nat} {e : HandleEntry}

def new : HandleTable := ⟨[]⟩

/-- The entries installed in the table, in slot order. -/
def entries (t : HandleTable) : List HandleEntry := t.slots.filterMap (·.entry)

def validatedSlot (t : HandleTable) (handle : Handle) : Except IpcError (Nat × Nat) :=
  match handleParts handle with
  | none => .error .invalidHandle
  | some (index, generation) =>
    match t.slots[index]? with
    | none => .error .invalidHandle
    | some slot =>
      if slot.generation ≠ generation ∨ slot.entry = none then .error .invalidHandle
      else .ok (index, generation)

def entry (t : HandleTable) (handle : Handle) : Except IpcError HandleEntry :=
  match t.validatedSlot handle with
  | .error e => .error e
  | .ok (index, _) =>
    match t.slots[index]?.bind (·.entry) with
    | none => .error .invalidHandle
    | some entry => .ok entry

def objectWithRights (t : HandleTable) (handle : Handle) (required : Rights) :
    Except IpcError Object :=
  match t.entry handle with
  | .error e => .error e
  | .ok entry =>
    if Bitflags.contains entry.rights required then .ok entry.object
    else .error .accessDenied

def handleRights (t : HandleTable) (handle : Handle) : Except IpcError Rights :=
  (t.entry handle).map (·.rights)

def objectType (t : HandleTable) (handle : Handle) : Except IpcError ObjectType :=
  (t.entry handle).map (·.object.kernel.type)

/-- Positions of the slots that can be handed out again, lowest first. -/
def freeSlots (t : HandleTable) : List Nat :=
  (t.slots.zipIdx.filter (fun p => p.1.free)).map (·.2)

/-- Append `count` slots that were never used. -/
def grow (t : HandleTable) (count : Nat) : HandleTable :=
  ⟨t.slots ++ List.replicate count HandleSlot.vacant⟩

def reserveSlots (t : HandleTable) (count : Nat) : EStateM Fault Budget (List Nat × HandleTable) :=
  if count = 0 then pure ([], t)
  else
    let vacant := (t.slots.filter (·.free)).length
    let available := vacant + (handleTableCapacity - t.slots.length)
    if count > available then throw (.error .handleTableFull)
    else do
      alloc (.error .outOfMemory)
      let reserved := t.freeSlots.take count
      if reserved.length = count then pure (reserved, t)
      else do
        let newSlotCount := count - reserved.length
        alloc (.error .outOfMemory)
        pure (reserved ++ List.range' t.slots.length newSlotCount, t.grow newSlotCount)

/-- Put an entry into a reserved slot. -/
def insertReserved (t : HandleTable) (index : Nat) (entry : HandleEntry) :
    Option (Handle × HandleTable) :=
  match t.slots[index]? with
  | none => none
  | some slot =>
    some (handleFromParts index slot.generation,
      ⟨t.slots.set index { slot with entry := some entry }⟩)

/-- Empty a slot and move it to its next generation. -/
def takeEntry (t : HandleTable) (index : Nat) : Option (HandleEntry × HandleTable) :=
  match t.slots[index]? with
  | some ⟨generation, some entry⟩ =>
    some (entry, ⟨t.slots.set index (HandleSlot.advanceGeneration ⟨generation, none⟩)⟩)
  | _ => none

/-- The table with a slot filled. -/
def fill (t : HandleTable) (index generation : Nat) (entry : HandleEntry) : HandleTable :=
  ⟨t.slots.set index ⟨generation, some entry⟩⟩

/-- The table with a slot emptied and moved to its next generation. -/
def vacate (t : HandleTable) (index generation : Nat) : HandleTable :=
  ⟨t.slots.set index (HandleSlot.advanceGeneration ⟨generation, none⟩)⟩

/-- The slot can be filled: it is empty and not retired. -/
def VacantAt (t : HandleTable) (index generation : Nat) : Prop :=
  t.slots[index]? = some ⟨generation, none⟩ ∧ generation ≠ 0

def OccupiedAt (t : HandleTable) (index generation : Nat) (entry : HandleEntry) : Prop :=
  t.slots[index]? = some ⟨generation, some entry⟩

theorem validatedSlot_ok : t.validatedSlot handle = .ok (index, generation) ↔
      handleParts handle = some (index, generation) ∧
        ∃ e, t.slots[index]? = some ⟨generation, some e⟩ := by
  unfold validatedSlot
  constructor
  · intro h
    split at h
    · cases h
    rename_i i' generation' hparts
    split at h
    · cases h
    rename_i slot hslot
    split at h
    · cases h
    rename_i hvalid
    cases h
    obtain ⟨slotGeneration, slotEntry⟩ := slot
    simp only [not_or, not_not] at hvalid
    obtain ⟨rfl, hsome⟩ := hvalid
    obtain ⟨e, rfl⟩ := Option.ne_none_iff_exists'.mp hsome
    exact ⟨hparts, e, hslot⟩
  · rintro ⟨hparts, e, hslot⟩
    simp [hparts, hslot]

theorem entry_ok : t.entry handle = .ok e ↔
      ∃ index generation : Nat, handleParts handle = some (index, generation) ∧
        t.slots[index]? = some ⟨generation, some e⟩ := by
  unfold entry
  constructor
  · intro h
    cases hv : t.validatedSlot handle with
    | error err => rw [hv] at h; cases h
    | ok p =>
      obtain ⟨index, generation⟩ := p
      obtain ⟨hparts, e', hslot⟩ := validatedSlot_ok.mp hv
      rw [hv] at h
      simp only [hslot, Option.bind_some, Except.ok.injEq] at h
      subst h
      exact ⟨index, generation, hparts, hslot⟩
  · rintro ⟨index, generation, hparts, hslot⟩
    have hv := validatedSlot_ok.mpr ⟨hparts, e, hslot⟩
    simp [hv, hslot]

theorem objectWithRights_ok {required : Rights} {object : Object}
    (h : t.objectWithRights handle required = .ok object) :
    ∃ e, t.entry handle = .ok e ∧ Bitflags.contains e.rights required = true ∧
      e.object = object := by
  unfold objectWithRights at h
  split at h
  · cases h
  rename_i e he
  split at h
  · rename_i hc
    cases h
    exact ⟨e, he, hc, rfl⟩
  · cases h

theorem mem_entries :
    e ∈ t.entries ↔ ∃ index generation : Nat, t.slots[index]? = some ⟨generation, some e⟩ := by
  unfold entries
  rw [mem_filterMap]
  constructor
  · rintro ⟨slot, hmem, hslot⟩
    obtain ⟨index, hidx⟩ := getElem?_of_mem hmem
    obtain ⟨generation, se⟩ := slot
    subst hslot
    exact ⟨index, generation, hidx⟩
  · rintro ⟨index, generation, hslot⟩
    exact ⟨_, mem_of_getElem? hslot, rfl⟩

theorem mem_entries_of_entry (h : t.entry handle = .ok e) : e ∈ t.entries := by
  obtain ⟨index, generation, _, hslot⟩ := entry_ok.mp h
  exact mem_entries.mpr ⟨index, generation, hslot⟩

/-! ## Reservation -/

theorem mem_freeSlots :
    index ∈ t.freeSlots ↔ ∃ slot, t.slots[index]? = some slot ∧ slot.free = true := by
  unfold freeSlots
  simp only [mem_map, mem_filter]
  constructor
  · rintro ⟨⟨slot, i⟩, ⟨hmem, hfree⟩, rfl⟩
    exact ⟨slot, mem_zipIdx_iff_getElem?.mp hmem, hfree⟩
  · rintro ⟨slot, hslot, hfree⟩
    exact ⟨(slot, index), ⟨mem_zipIdx_iff_getElem?.mpr hslot, hfree⟩, rfl⟩

theorem nodup_freeSlots (t : HandleTable) : t.freeSlots.Nodup := by
  have hsub : ((t.slots.zipIdx.filter (fun p => p.1.free)).map (·.2)).Sublist
      (t.slots.zipIdx.map (·.2)) := filter_sublist.map _
  apply hsub.nodup
  rw [zipIdx_map_snd]
  exact nodup_range'

theorem length_freeSlots (t : HandleTable) :
    t.freeSlots.length = (t.slots.filter (·.free)).length := by
  unfold freeSlots
  rw [length_map]
  have hmap : (t.slots.zipIdx.filter (fun p => p.1.free)).map (·.1) =
      (t.slots.zipIdx.map (·.1)).filter (·.free) := by
    rw [filter_map]
    rfl
  rw [zipIdx_map_fst] at hmap
  rw [← hmap, length_map]

@[simp] theorem length_grow (t : HandleTable) (count : Nat) :
    (t.grow count).slots.length = t.slots.length + count := by
  simp [grow]

theorem getElem?_grow_of_lt (count : Nat) (h : index < t.slots.length) :
    (t.grow count).slots[index]? = t.slots[index]? := by
  simp [grow, getElem?_append_left h]

theorem getElem?_grow_of_some {slot : HandleSlot} (count : Nat) (h : t.slots[index]? = some slot) :
    (t.grow count).slots[index]? = some slot := by
  rw [getElem?_grow_of_lt count (lt_length h), h]

@[simp] theorem entries_grow (t : HandleTable) (count : Nat) :
    (t.grow count).entries = t.entries := by
  have hnone : (List.replicate count HandleSlot.vacant).filterMap (·.entry) = [] := by
    rw [filterMap_eq_nil_iff]
    intro slot hslot
    rw [eq_of_mem_replicate hslot]
    rfl
  simp [entries, grow, hnone]

/-- What a reservation of `count` slots hands out. -/
structure Reserved (t : HandleTable) (count : Nat) (slots : List Nat) (t' : HandleTable) :
    Prop where
  /-- The table only gained slots that were never used. -/
  grown : ∃ k, t' = t.grow k
  fits : t.slots.length ≤ handleTableCapacity → t'.slots.length ≤ handleTableCapacity
  length : slots.length = count
  nodup : slots.Nodup
  vacant : ∀ index ∈ slots, ∃ generation, t'.VacantAt index generation

/-- A reservation of two slots. -/
theorem Reserved.pair {t' : HandleTable} {slots : List Nat} (h : Reserved t 2 slots t') :
    ∃ a b generation generation', slots = [a, b] ∧ b ≠ a ∧ t'.VacantAt a generation ∧
      t'.VacantAt b generation' := by
  obtain ⟨a, b, rfl⟩ := length_eq_two.mp h.length
  obtain ⟨generation, ha⟩ := h.vacant a mem_cons_self
  obtain ⟨generation', hb⟩ := h.vacant b (mem_cons_of_mem _ mem_cons_self)
  have hne : b ≠ a := by
    intro hba
    have hnodup := h.nodup
    simp [hba] at hnodup
  exact ⟨a, b, generation, generation', rfl, hne, ha, hb⟩

theorem vacantAt_of_mem_freeSlots (h : index ∈ t.freeSlots) :
    ∃ generation, t.VacantAt index generation := by
  obtain ⟨⟨generation, entry⟩, hslot, hfree⟩ := mem_freeSlots.mp h
  simp only [HandleSlot.free, Bool.and_eq_true, Option.isNone_iff_eq_none, bne_iff_ne] at hfree
  obtain ⟨rfl, hgen⟩ := hfree
  exact ⟨generation, hslot, hgen⟩

theorem reserved_reuse {count : Nat} (hlen : (t.freeSlots.take count).length = count) :
    Reserved t count (t.freeSlots.take count) t where
  grown := ⟨0, by simp [grow]⟩
  fits := id
  length := hlen
  nodup := (nodup_freeSlots t).sublist (take_sublist _ _)
  vacant := fun _ hmem => vacantAt_of_mem_freeSlots (mem_of_mem_take hmem)

theorem reserved_extend {count : Nat} (hshort : t.freeSlots.length < count)
    (hroom : count ≤ t.freeSlots.length + (handleTableCapacity - t.slots.length)) :
    Reserved t count (t.freeSlots ++ List.range' t.slots.length (count - t.freeSlots.length))
      (t.grow (count - t.freeSlots.length)) where
  grown := ⟨_, rfl⟩
  fits := by
    intro hcap
    rw [length_grow]
    omega
  length := by
    rw [length_append, length_range']
    omega
  nodup := by
    rw [nodup_append]
    refine ⟨nodup_freeSlots t, nodup_range', ?_⟩
    intro a ha b hb
    obtain ⟨slot, hslot, _⟩ := mem_freeSlots.mp ha
    have hlt := lt_length hslot
    rw [mem_range'_1] at hb
    omega
  vacant := by
    intro index hmem
    rw [mem_append] at hmem
    rcases hmem with hmem | hmem
    · obtain ⟨generation, hslot, hgen⟩ := vacantAt_of_mem_freeSlots hmem
      exact ⟨generation, getElem?_grow_of_some _ hslot, hgen⟩
    refine ⟨1, ?_, by decide⟩
    rw [mem_range'_1] at hmem
    simp only [grow]
    rw [getElem?_append_right hmem.1, getElem?_replicate, if_pos (by omega)]
    rfl

theorem wp_reserveSlots {count : Nat} {Q : List Nat × HandleTable → Budget → Prop}
    {E : Fault → Budget → Prop} {m : Budget}
    (hQ : ∀ slots t' m', Reserved t count slots t' → Q (slots, t') m')
    (hE : ∀ e m', E (.error e) m') : wp (t.reserveSlots count) Q E m := by
  refine wp_ite (fun hzero => ?_) (fun _ => wp_ite (fun _ => wp_throw (hE _ _)) fun hroom => ?_)
  · subst hzero
    exact wp_pure (hQ _ _ _ (reserved_reuse rfl))
  rw [← length_freeSlots] at hroom
  refine wp_bind (wp_alloc (fun m1 => ?_) (hE _))
  refine wp_ite (fun hlen => wp_pure (hQ _ _ _ (reserved_reuse hlen))) fun hlen => ?_
  have hshort : t.freeSlots.length < count := by
    rw [length_take] at hlen
    omega
  have htake : t.freeSlots.take count = t.freeSlots := take_of_length_le (Nat.le_of_lt hshort)
  rw [htake]
  refine wp_bind (wp_alloc (fun m2 => wp_pure (hQ _ _ _ ?_)) (hE _))
  exact reserved_extend hshort (by omega)

theorem insertReserved_vacant (h : t.VacantAt index generation) : t.insertReserved index e =
      some (handleFromParts index generation, t.fill index generation e) := by
  unfold insertReserved
  rw [h.1]
  rfl

theorem takeEntry_occupied (h : t.OccupiedAt index generation e) :
    t.takeEntry index = some (e, t.vacate index generation) := by
  unfold takeEntry
  rw [h]
  rfl

theorem entries_perm_of_getElem? {slots : List HandleSlot} {slot : HandleSlot}
    (h : slots[index]? = some slot) :
    (slots.filterMap (·.entry)).Perm ((slot :: slots.eraseIdx index).filterMap (·.entry)) := by
  obtain ⟨hlt, rfl⟩ := List.getElem?_eq_some_iff.mp h
  exact ((getElem_cons_eraseIdx_perm hlt).filterMap _).symm

theorem entries_set_perm {slots : List HandleSlot} (slot : HandleSlot) (h : index < slots.length) :
    ((slots.set index slot).filterMap (·.entry)).Perm
      ((slot :: slots.eraseIdx index).filterMap (·.entry)) :=
  (set_perm_cons_eraseIdx h slot).filterMap _

theorem entries_fill (h : t.VacantAt index generation) :
    (t.fill index generation e).entries.Perm (e :: t.entries) := by
  have hlt := lt_length h.1
  have hold := entries_perm_of_getElem? h.1
  have hnew := entries_set_perm ⟨generation, some e⟩ hlt
  exact hnew.trans (hold.symm.cons e)

theorem entries_vacate (h : t.OccupiedAt index generation e) :
    t.entries.Perm (e :: (t.vacate index generation).entries) := by
  have hlt := lt_length h
  have hold := entries_perm_of_getElem? h
  have hnone : (HandleSlot.advanceGeneration ⟨generation, none⟩).entry = none := by
    unfold HandleSlot.advanceGeneration
    split <;> rfl
  have hnew := entries_set_perm (HandleSlot.advanceGeneration ⟨generation, none⟩) hlt
  rw [filterMap_cons_none hnone] at hnew
  exact hold.trans (hnew.symm.cons e)

end HandleTable

end Ginkgo.Ipc
