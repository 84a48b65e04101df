import Ginkgo.Ipc.HandleTable
import Ginkgo.Lib.Transition

/-!
# Runs of one handle table

A table grows, fills slots and vacates them; that is all an operation can do to it.  The
positions and generations of its slots then always fit into a handle.
-/

namespace Ginkgo.Ipc

open Ginkgo.Lib Ginkgo.Sysapi List HandleSlot

/-- One change of a table, with the handles it issues. -/
inductive TableStep : HandleTable → List Handle → HandleTable → Prop
  | grow {t : HandleTable} {count : Nat} (hfits : t.slots.length ≤ handleTableCapacity →
        (t.grow count).slots.length ≤ handleTableCapacity) : TableStep t [] (t.grow count)
  | fill {t : HandleTable} {index generation : Nat} {entry : HandleEntry}
      (hvacant : t.VacantAt index generation) :
      TableStep t [handleFromParts index generation] (t.fill index generation entry)
  | vacate {t : HandleTable} {index generation : Nat} {entry : HandleEntry}
      (hslot : t.OccupiedAt index generation entry) :
      TableStep t [] (t.vacate index generation)

namespace HandleTable

variable {t t' : HandleTable} {handles : List Handle} {index generation : Nat} {handle : Handle}
  {entry : HandleEntry}

theorem getElem?_fill_self {entry : HandleEntry} (h : t.VacantAt index generation) :
    (t.fill index generation entry).OccupiedAt index generation entry := by
  have hlt := lt_length h.1
  simp [OccupiedAt, fill, hlt]

theorem getElem?_fill_of_ne {i' : Nat} (h : i' ≠ index) :
    (t.fill index generation entry).slots[i']? = t.slots[i']? := by
  simp only [fill, getElem?_set]
  rw [if_neg (Ne.symm h)]

theorem getElem?_vacate_self (h : t.OccupiedAt index generation entry) :
    (t.vacate index generation).slots[index]? =
      some (HandleSlot.advanceGeneration ⟨generation, none⟩) := by
  have hlt := lt_length h
  simp [vacate, hlt]

theorem getElem?_vacate_of_ne {i' : Nat} (h : i' ≠ index) :
    (t.vacate index generation).slots[i']? = t.slots[i']? := by
  simp only [vacate, getElem?_set]
  rw [if_neg (Ne.symm h)]

/-! ## Bounds -/

/-- The bounds under which a slot's position and generation fit into a handle. -/
structure Bounded (t : HandleTable) : Prop where
  slots : t.slots.length ≤ handleTableCapacity
  generations : ∀ slot ∈ t.slots, slot.generation ≤ handleGenerationMask

theorem advanceGeneration_le {slot : HandleSlot} (h : slot.generation ≤ handleGenerationMask) :
    slot.advanceGeneration.generation ≤ handleGenerationMask := by
  unfold advanceGeneration
  split
  · exact Nat.zero_le _
  · rename_i hlast
    change slot.generation + 1 ≤ handleGenerationMask
    omega

theorem bounded_new : HandleTable.new.Bounded where
  slots := Nat.zero_le _
  generations := by simp [HandleTable.new]

theorem Bounded.step (h : t.Bounded) (hstep : TableStep t handles t') : t'.Bounded := by
  cases hstep with
  | grow hfits =>
    refine ⟨hfits h.slots, fun slot hslot => ?_⟩
    rcases mem_append.mp hslot with hslot | hslot
    · exact h.generations slot hslot
    · rw [eq_of_mem_replicate hslot]
      decide
  | fill hvac =>
    have hold := h.generations _ (mem_of_getElem? hvac.1)
    exact ⟨by simpa [fill] using h.slots, forall_mem_set h.generations hold⟩
  | vacate hslot =>
    have hold := h.generations _ (mem_of_getElem? hslot)
    refine ⟨by simpa [vacate] using h.slots, ?_⟩
    exact forall_mem_set h.generations (advanceGeneration_le hold)

theorem Bounded.handleParts {entry : Option HandleEntry} (h : t.Bounded)
    (hslot : t.slots[index]? = some ⟨generation, entry⟩) (hpos : generation ≠ 0) :
    handleParts (handleFromParts index generation) = some (index, generation) := by
  have hlt := lt_length hslot
  have hgen := h.generations _ (mem_of_getElem? hslot)
  refine handleParts_handleFromParts ?_ hpos hgen
  exact hlt.trans_le (h.slots.trans (by decide))

theorem Bounded.entry_fill {entry : HandleEntry} (h : t.Bounded)
    (hvac : t.VacantAt index generation) :
    (t.fill index generation entry).entry (handleFromParts index generation) = .ok entry :=
  entry_ok.mpr ⟨index, generation, h.handleParts hvac.1 hvac.2, getElem?_fill_self hvac⟩

theorem entry_fill_of_ok {entry e : HandleEntry} (hvac : t.VacantAt index generation)
    (h : t.entry handle = .ok e) : (t.fill index generation entry).entry handle = .ok e := by
  obtain ⟨i', generation', hparts, hslot⟩ := entry_ok.mp h
  refine entry_ok.mpr ⟨i', generation', hparts, ?_⟩
  rw [getElem?_fill_of_ne, hslot]
  rintro rfl
  rw [hvac.1] at hslot
  cases hslot

/-! ## Whole runs -/

theorem bounded_of_star (h : Star TableStep t handles t') (hbnd : t.Bounded) : t'.Bounded :=
  h.invariant (I := fun _ t => t.Bounded) hbnd fun _ _ _ _ ih hstep => ih.step hstep

end HandleTable

end Ginkgo.Ipc
