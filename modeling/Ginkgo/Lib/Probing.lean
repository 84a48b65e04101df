import Ginkgo.Lib.Vectors

/-!
# Open addressing

A table of slots in which every key has a path of slots to try.  A key is looked for along
its path up to the first slot that was never filled; a removed key leaves a tombstone, which
the search passes and the next key reuses.
-/

namespace Ginkgo.Lib

inductive ProbeSlot (K V : Type)
  | empty
  | tombstone
  | occupied (key : K) (value : V)
  deriving DecidableEq

namespace Probing

variable {K V : Type} {slots : List (ProbeSlot K V)} {key : K} {value : V}

/-- The slot of a key on its path. -/
def position [DecidableEq K] (slots : List (ProbeSlot K V)) (key : K) : List Nat → Option Nat
  | [] => none
  | i :: path =>
    match slots[i]? with
    | some (.occupied key' _) => if key' = key then some i else position slots key path
    | some .tombstone => position slots key path
    | some .empty | none => none

def valueAt (slots : List (ProbeSlot K V)) (i : Nat) : Option V :=
  match slots[i]? with
  | some (.occupied _ value) => some value
  | _ => none

def find [DecidableEq K] (slots : List (ProbeSlot K V)) (key : K) (path : List Nat) : Option V :=
  (position slots key path).bind (valueAt slots)

/-- The slot for a new key: the first tombstone before an empty slot, or that slot. -/
def vacancy (slots : List (ProbeSlot K V)) : List Nat → Option Nat → Option Nat
  | [], tombstone => tombstone
  | i :: path, tombstone =>
    match slots[i]? with
    | some .empty => some (tombstone.getD i)
    | some .tombstone => vacancy slots path (some (tombstone.getD i))
    | some (.occupied _ _) | none => vacancy slots path tombstone

def insert (slots : List (ProbeSlot K V)) (key : K) (value : V) (path : List Nat) :
    Option (List (ProbeSlot K V)) :=
  (vacancy slots path none).map fun i => slots.set i (.occupied key value)

def remove [DecidableEq K] (slots : List (ProbeSlot K V)) (key : K) (path : List Nat) :
    List (ProbeSlot K V) :=
  match position slots key path with
  | some i => slots.set i .tombstone
  | none => slots

/-- The table maps the key to the value. -/
def Holds (slots : List (ProbeSlot K V)) (key : K) (value : V) : Prop :=
  ∃ i : Nat, slots[i]? = some (.occupied key value)

/-- A search for the key goes past this slot. -/
def Passable (slots : List (ProbeSlot K V)) (key : K) (i : Nat) : Prop :=
  slots[i]? = some .tombstone ∨ ∃ key' value, key' ≠ key ∧ slots[i]? = some (.occupied key' value)

/-- Every key is met on its path, with nothing in between that would stop the search. -/
def WellFormed (slots : List (ProbeSlot K V)) (path : K → List Nat) : Prop :=
  ∀ i key value, slots[i]? = some (.occupied key value) →
    ∃ before after, path key = before ++ i :: after ∧ ∀ j ∈ before, Passable slots key j

section Search

variable [DecidableEq K] {path : List Nat}

theorem position_append {before rest : List Nat} (h : ∀ j ∈ before, Passable slots key j) :
    position slots key (before ++ rest) = position slots key rest := by
  induction before with
  | nil => rfl
  | cons i before ih =>
    have hrest := ih fun j hj => h j (List.mem_cons_of_mem _ hj)
    rw [List.cons_append, position]
    rcases h i List.mem_cons_self with hslot | ⟨key', value, hne, hslot⟩
    · rw [hslot]
      exact hrest
    · rw [hslot]
      simp only [if_neg hne]
      exact hrest

theorem position_some {i : Nat} (h : position slots key path = some i) :
    ∃ value, slots[i]? = some (.occupied key value) := by
  induction path with
  | nil => cases h
  | cons j path ih =>
    rw [position] at h
    split at h
    · rename_i key' value hslot
      split at h
      · rename_i heq
        cases h
        exact ⟨value, heq ▸ hslot⟩
      · exact ih h
    · exact ih h
    · cases h
    · cases h

variable {path : K → List Nat}

variable (h : WellFormed slots path)
include h

theorem WellFormed.position_eq {i : Nat}
    (hslot : slots[i]? = some (.occupied key value)) : position slots key (path key) = some i := by
  obtain ⟨before, after, hpath, hbef⟩ := h i key value hslot
  rw [hpath, position_append hbef, position, hslot]
  exact if_pos rfl

theorem WellFormed.slot_unique {i j : Nat} {value' : V}
    (hi : slots[i]? = some (.occupied key value)) (hj : slots[j]? = some (.occupied key value')) :
    i = j :=
  Option.some.inj ((h.position_eq hi).symm.trans (h.position_eq hj))

theorem WellFormed.find_eq_some_iff :
    find slots key (path key) = some value ↔ Holds slots key value := by
  constructor
  · intro hfind
    obtain ⟨i, hpos, hvalue⟩ := Option.bind_eq_some_iff.mp hfind
    obtain ⟨value', hslot⟩ := position_some hpos
    rw [valueAt, hslot] at hvalue
    cases hvalue
    exact ⟨i, hslot⟩
  · rintro ⟨i, hslot⟩
    unfold find
    rw [h.position_eq hslot, Option.bind_some, valueAt, hslot]

theorem WellFormed.holds_unique {value' : V}
    (hvalue : Holds slots key value) (hvalue' : Holds slots key value') : value = value' :=
  Option.some.inj ((h.find_eq_some_iff.mpr hvalue).symm.trans (h.find_eq_some_iff.mpr hvalue'))

theorem WellFormed.remove (key : K) : WellFormed (remove slots key (path key)) path := by
  unfold Probing.remove
  split
  · rename_i p hpos
    obtain ⟨value, hp⟩ := position_some hpos
    have hlt := lt_length hp
    intro i key' value' hslot
    rw [List.getElem?_set] at hslot
    split at hslot
    · simp at hslot
    obtain ⟨before, after, hpath, hbef⟩ := h i key' value' hslot
    refine ⟨before, after, hpath, fun j hj => ?_⟩
    unfold Passable
    rw [List.getElem?_set]
    by_cases hjp : p = j
    · rw [if_pos hjp, if_pos (hjp ▸ hlt)]
      exact .inl rfl
    · rw [if_neg hjp]
      exact hbef j hj
  · exact h

theorem WellFormed.holds_remove (removed : K) :
    Holds (Probing.remove slots removed (path removed)) key value ↔
      key ≠ removed ∧ Holds slots key value := by
  unfold Probing.remove
  cases hpos : position slots removed (path removed) with
  | none =>
    refine ⟨fun hholds => ⟨?_, hholds⟩, fun hholds => hholds.2⟩
    rintro rfl
    obtain ⟨i, hslot⟩ := hholds
    rw [h.position_eq hslot] at hpos
    cases hpos
  | some p =>
    obtain ⟨value', hp⟩ := position_some hpos
    have hset := getElem?_set_iff hp ProbeSlot.tombstone
    constructor
    · rintro ⟨i, hslot⟩
      rcases (hset i _).mp hslot with ⟨-, hcontra⟩ | ⟨hne, hslot⟩
      · cases hcontra
      · refine ⟨?_, i, hslot⟩
        rintro rfl
        exact hne (h.slot_unique hslot hp)
    · rintro ⟨hne, i, hslot⟩
      refine ⟨i, (hset i _).mpr (.inr ⟨?_, hslot⟩)⟩
      rintro rfl
      rw [hslot] at hp
      exact hne (ProbeSlot.occupied.inj (Option.some.inj hp)).1

end Search

/-! ## Insertion -/

theorem vacancy_some (path : List Nat) (i : Nat) : vacancy slots path (some i) = some i := by
  induction path with
  | nil => rfl
  | cons j path ih =>
    rw [vacancy]
    split <;> first | rfl | exact ih

theorem vacancy_spec {i : Nat} (hrange : ∀ j ∈ path, j < slots.length)
    (h : vacancy slots path none = some i) :
    (slots[i]? = some .empty ∨ slots[i]? = some .tombstone) ∧
      ∃ before after, path = before ++ i :: after ∧
        ∀ j ∈ before, ∃ key value, slots[j]? = some (.occupied key value) := by
  induction path with
  | nil => cases h
  | cons j path ih =>
    rw [vacancy] at h
    split at h
    · rename_i hslot
      obtain rfl : j = i := Option.some.inj h
      exact ⟨.inl hslot, [], path, rfl, nofun⟩
    · rename_i hslot
      rw [vacancy_some] at h
      obtain rfl : j = i := Option.some.inj h
      exact ⟨.inr hslot, [], path, rfl, nofun⟩
    · rename_i key' value' hslot
      obtain ⟨hfree, before, after, hpath, hbef⟩ :=
        ih (fun k hk => hrange k (List.mem_cons_of_mem _ hk)) h
      refine ⟨hfree, j :: before, after, by rw [hpath]; rfl, fun k hk => ?_⟩
      rcases List.mem_cons.mp hk with rfl | hk
      · exact ⟨key', value', hslot⟩
      · exact hbef k hk
    · rename_i hslot
      have hlt := hrange j List.mem_cons_self
      exact absurd (List.getElem?_eq_none_iff.mp hslot) (Nat.not_le.mpr hlt)

theorem vacancy_eq_none (hrange : ∀ j ∈ path, j < slots.length)
    (h : vacancy slots path none = none) :
    ∀ j ∈ path, ∃ key value, slots[j]? = some (.occupied key value) := by
  induction path with
  | nil => nofun
  | cons j path ih =>
    rw [vacancy] at h
    split at h
    · cases h
    · rw [vacancy_some] at h
      cases h
    · rename_i key' value' hslot
      intro k hk
      rcases List.mem_cons.mp hk with rfl | hk
      · exact ⟨key', value', hslot⟩
      · exact ih (fun k hk => hrange k (List.mem_cons_of_mem _ hk)) h k hk
    · rename_i hslot
      have hlt := hrange j List.mem_cons_self
      exact absurd (List.getElem?_eq_none_iff.mp hslot) (Nat.not_le.mpr hlt)

variable {path : K → List Nat} {slots' : List (ProbeSlot K V)}

section

variable (h : insert slots key value (path key) = some slots')
include h

theorem insert_eq_some (hrange : ∀ j ∈ path key, j < slots.length) :
    ∃ i slot before after, slots' = slots.set i (.occupied key value) ∧
      slots[i]? = some slot ∧ (∀ key value, slot ≠ .occupied key value) ∧
      path key = before ++ i :: after ∧
        ∀ j ∈ before, ∃ key value, slots[j]? = some (.occupied key value) := by
  obtain ⟨i, hvacancy, rfl⟩ := Option.map_eq_some_iff.mp h
  obtain ⟨hfree, before, after, hpath, hbef⟩ := vacancy_spec hrange hvacancy
  rcases hfree with hslot | hslot
  · exact ⟨i, .empty, before, after, rfl, hslot, nofun, hpath, hbef⟩
  · exact ⟨i, .tombstone, before, after, rfl, hslot, nofun, hpath, hbef⟩

theorem length_insert : slots'.length = slots.length := by
  obtain ⟨i, -, rfl⟩ := Option.map_eq_some_iff.mp h
  exact List.length_set

theorem holds_insert (hrange : ∀ j ∈ path key, j < slots.length) {key' : K} {value' : V} :
    Holds slots' key' value' ↔ key' = key ∧ value' = value ∨ Holds slots key' value' := by
  obtain ⟨i, slot, before, after, rfl, hslot, hfree, -, -⟩ := insert_eq_some h hrange
  have hset := getElem?_set_iff hslot (ProbeSlot.occupied key value)
  constructor
  · rintro ⟨j, hj⟩
    rcases (hset j _).mp hj with ⟨-, heq⟩ | ⟨-, hj⟩
    · exact .inl (ProbeSlot.occupied.inj heq)
    · exact .inr ⟨j, hj⟩
  · rintro (⟨rfl, rfl⟩ | ⟨j, hj⟩)
    · exact ⟨i, (hset i _).mpr (.inl ⟨rfl, rfl⟩)⟩
    · refine ⟨j, (hset j _).mpr (.inr ⟨?_, hj⟩)⟩
      rintro rfl
      exact hfree key' value' (Option.some.inj (hslot.symm.trans hj))

theorem WellFormed.insert (hwf : WellFormed slots path)
    (hrange : ∀ j ∈ path key, j < slots.length) (habsent : ∀ value, ¬Holds slots key value) :
    WellFormed slots' path := by
  obtain ⟨i, slot, before, after, rfl, hslot, hfree, hpath, hbef⟩ := insert_eq_some h hrange
  have hset := getElem?_set_iff hslot (ProbeSlot.occupied key value)
  have hpassed : ∀ (k : Nat) key' value', slots[k]? = some (.occupied key' value') →
      (slots.set i (.occupied key value))[k]? = some (.occupied key' value') := by
    intro k key' value' hk
    refine (hset k _).mpr (.inr ⟨?_, hk⟩)
    rintro rfl
    exact hfree key' value' (Option.some.inj (hslot.symm.trans hk))
  intro j key' value' hj
  rcases (hset j _).mp hj with ⟨rfl, heq⟩ | ⟨-, hj⟩
  · -- the new key: before its slot there are only filled ones, none of them its own
    obtain ⟨rfl, rfl⟩ := ProbeSlot.occupied.inj heq
    refine ⟨before, after, hpath, fun k hk => .inr ?_⟩
    obtain ⟨key', value', hk⟩ := hbef k hk
    refine ⟨key', value', ?_, hpassed k key' value' hk⟩
    rintro rfl
    exact habsent value' ⟨k, hk⟩
  · -- another key: the slot that was filled on its path is now passed as a filled one
    obtain ⟨before', after', hpath', hbef'⟩ := hwf j key' value' hj
    refine ⟨before', after', hpath', fun k hk => ?_⟩
    by_cases heq : k = i
    · refine .inr ⟨key, value, ?_, (hset k _).mpr (.inl ⟨heq, rfl⟩)⟩
      rintro rfl
      exact habsent value' ⟨j, hj⟩
    · rcases hbef' k hk with hk | ⟨key'', value'', hne, hk⟩
      · exact .inl ((hset k _).mpr (.inr ⟨heq, hk⟩))
      · exact .inr ⟨key'', value'', hne, hpassed k key'' value'' hk⟩

end

/-- A key can be inserted while some slot is not filled, if its path meets every slot. -/
theorem insert_isSome {order : List Nat} (hrange : ∀ j ∈ order, j < slots.length)
    (hcovers : ∀ j < slots.length, j ∈ order)
    (hroom : ∃ j < slots.length, ∀ key value, slots[j]? ≠ some (.occupied key value)) :
    (insert slots key value order).isSome := by
  unfold Probing.insert
  cases hvacancy : vacancy slots order none with
  | some i => rfl
  | none =>
    obtain ⟨j, hj, hfree⟩ := hroom
    obtain ⟨key', value', hslot⟩ := vacancy_eq_none hrange hvacancy j (hcovers j hj)
    exact absurd hslot (hfree key' value')

end Probing

end Ginkgo.Lib
