import Ginkgo.Lib.Vectors
import Mathlib.Data.List.Nodup

/-!
# Binary heaps with back-pointers

A state keeps a binary heap in a vector and, with the owner of every entry, the position of
that entry, so that an entry can be removed from the middle.  `Store` says how the state is
read and written, and the operations work on any state that has one.

The first part is about vectors alone: what swapping an entry with its parent does to the
order of the heap.  The second is about the back-pointers, and the third puts both
together: after every operation the vector is a heap of the entries it should have and
the back-pointers are exact.
-/

namespace Ginkgo.Lib.IndexedHeap

open List

variable {σ α κ ι : Type} {entries : List α} {a b : α}

def parent (index : Nat) : Nat := (index - 1) / 2

/-- Exchange two positions of a vector. -/
def swapEntries (entries : List α) (left right : Nat) : List α :=
  match entries[left]?, entries[right]? with
  | some a, some b => (entries.set left b).set right a
  | _, _ => entries

theorem getElem?_swapEntries {left right : Nat}
    (ha : entries[left]? = some a) (hb : entries[right]? = some b) (k : Nat) :
    (swapEntries entries left right)[k]? =
      if k = right then some a else if k = left then some b else entries[k]? := by
  obtain ⟨hleft, -⟩ := List.getElem?_eq_some_iff.mp ha
  obtain ⟨hright, -⟩ := List.getElem?_eq_some_iff.mp hb
  simp only [swapEntries, ha, hb]
  by_cases hkr : k = right
  · subst hkr
    simp [hright]
  · by_cases hkl : k = left
    · subst hkl
      simp [hkr, Ne.symm hkr, hleft]
    · simp [hkr, hkl, Ne.symm hkr, Ne.symm hkl]

theorem length_swapEntries (entries : List α) (left right : Nat) :
    (swapEntries entries left right).length = entries.length := by
  unfold swapEntries
  split <;> simp

theorem swapEntries_perm (entries : List α) (left right : Nat) :
    (swapEntries entries left right).Perm entries := by
  unfold swapEntries
  split
  · rename_i a b ha hb
    obtain ⟨hleft, rfl⟩ := List.getElem?_eq_some_iff.mp ha
    obtain ⟨hright, rfl⟩ := List.getElem?_eq_some_iff.mp hb
    exact set_set_perm hleft hright
  · exact List.Perm.refl _

/-! ## Order -/

section Order

variable [LinearOrder κ] (key : α → κ)

/-- The entry at `i` comes no later than the one at `j`. -/
def Le (entries : List α) (i j : Nat) : Prop :=
  ∀ a b, entries[i]? = some a → entries[j]? = some b → key a ≤ key b

def Ordered (entries : List α) : Prop := ∀ j, 0 < j → Le key entries (parent j) j

/-- In order but for `index` and its parent. -/
structure OrderedBelow (entries : List α) (index : Nat) : Prop where
  off : ∀ j, 0 < j → j ≠ index → Le key entries (parent j) j
  across : ∀ j, 0 < j → parent j = index → 0 < index → Le key entries (parent index) j

/-- In order but for `index` and its children. -/
structure OrderedAbove (entries : List α) (index : Nat) : Prop where
  off : ∀ j, 0 < j → parent j ≠ index → Le key entries (parent j) j
  across : ∀ j, 0 < j → parent j = index → 0 < index → Le key entries (parent index) j

variable {key} {entries : List α} {index : Nat} {a b : α}

theorem OrderedBelow.done (h : OrderedBelow key entries index)
    (hstop : 0 < index → Le key entries (parent index) index) : Ordered key entries := by
  intro j hj
  by_cases heq : j = index
  · subst heq
    exact hstop hj
  · exact h.off j hj heq

theorem OrderedBelow.swap (h : OrderedBelow key entries index) (hpos : 0 < index)
    (ha : entries[parent index]? = some a) (hb : entries[index]? = some b) (hlt : key b < key a) :
    OrderedBelow key (swapEntries entries (parent index) index) (parent index) := by
  have hget := getElem?_swapEntries ha hb
  have hparent : parent index < index := by unfold parent; omega
  have hsibling j (hj : 0 < j) (hch : parent j = parent index) (hne : j ≠ index)
      y (hy : entries[j]? = some y) : key a ≤ key y := by
    have hle := h.off j hj hne
    rw [hch] at hle
    exact hle a y ha hy
  constructor
  · intro j hj hne x y hx hy
    rw [hget] at hx hy
    by_cases hji : j = index
    · subst hji
      rw [if_pos rfl] at hy
      rw [if_neg hparent.ne, if_pos rfl] at hx
      cases hx
      cases hy
      exact hlt.le
    · rw [if_neg hji, if_neg hne] at hy
      by_cases hpi : parent j = index
      · rw [if_pos hpi] at hx
        cases hx
        exact h.across j hj hpi hpos a y ha hy
      · rw [if_neg hpi] at hx
        by_cases hpp : parent j = parent index
        · rw [if_pos hpp] at hx
          cases hx
          exact hlt.le.trans (hsibling j hj hpp hji y hy)
        · rw [if_neg hpp] at hx
          exact h.off j hj hji x y hx hy
  · intro j hj hch hpos' x y hx hy
    have hgrand : parent (parent index) < parent index := by
      unfold parent at hpos' ⊢
      omega
    rw [hget, if_neg (by omega), if_neg hgrand.ne] at hx
    have hup : key x ≤ key a := h.off (parent index) hpos' hparent.ne x a hx ha
    rw [hget] at hy
    by_cases hji : j = index
    · rw [if_pos hji] at hy
      cases hy
      exact hup
    · have hjp : j ≠ parent index := by
        intro heq
        rw [heq] at hch
        omega
      rw [if_neg hji, if_neg hjp] at hy
      exact hup.trans (hsibling j hj hch hji y hy)

theorem OrderedAbove.done (h : OrderedAbove key entries index)
    (hstop : ∀ j, 0 < j → parent j = index → Le key entries index j) : Ordered key entries := by
  intro j hj
  by_cases heq : parent j = index
  · rw [heq]
    exact hstop j hj heq
  · exact h.off j hj heq

theorem OrderedAbove.swap (h : OrderedAbove key entries index) {child : Nat}
    (hch : parent child = index) (hpos : 0 < child)
    (hleast : ∀ j, 0 < j → parent j = index → Le key entries child j)
    (ha : entries[index]? = some a) (hb : entries[child]? = some b) (hlt : key b < key a) :
    OrderedAbove key (swapEntries entries index child) child := by
  have hget := getElem?_swapEntries ha hb
  have hlt' : index < child := by unfold parent at hch; omega
  constructor
  · intro j hj hne x y hx hy
    rw [hget] at hx hy
    rw [if_neg hne] at hx
    by_cases hpi : parent j = index
    · rw [if_pos hpi] at hx
      cases hx
      by_cases hjc : j = child
      · rw [if_pos hjc] at hy
        cases hy
        exact hlt.le
      · have hji : j ≠ index := by
          intro heq
          unfold parent at hpi
          omega
        rw [if_neg hjc, if_neg hji] at hy
        exact hleast j hj hpi b y hb hy
    · rw [if_neg hpi] at hx
      have hjc : j ≠ child := fun heq => hpi (heq ▸ hch)
      rw [if_neg hjc] at hy
      by_cases hji : j = index
      · rw [if_pos hji] at hy
        cases hy
        rw [hji] at hx
        exact h.across child hpos hch (hji ▸ hj) x b hx hb
      · rw [if_neg hji] at hy
        exact h.off j hj hpi x y hx hy
  · intro j hj hgrand _ x y hx hy
    have hjc : child < j := by unfold parent at hgrand; omega
    rw [hch, hget, if_neg hlt'.ne, if_pos rfl] at hx
    rw [hget, if_neg (by omega), if_neg (by omega)] at hy
    cases hx
    have hne : parent j ≠ index := by omega
    have hle := h.off j hj hne
    rw [hgrand] at hle
    exact hle b y hb hy

theorem Ordered.first_le (h : Ordered key entries) (ha : entries[0]? = some a) {i : Nat}
    (hb : entries[i]? = some b) : key a ≤ key b := by
  induction i using Nat.strongRecOn generalizing b with
  | ind i ih =>
    by_cases hi : i = 0
    · subst hi
      rw [ha] at hb
      cases hb
      exact le_refl _
    · have hlt : parent i < i := by unfold parent; omega
      have hbnd : parent i < entries.length := hlt.trans (lt_length hb)
      have hp := getElem?_eq_getElem hbnd
      exact (ih (parent i) hlt hp).trans (h i (by omega) _ b hp hb)

theorem Ordered.append (h : Ordered key entries) (e : α) :
    OrderedBelow key (entries ++ [e]) entries.length := by
  have hfront i x (hx : (entries ++ [e])[i]? = some x) (hi : i ≠ entries.length) :
      entries[i]? = some x := by
    have hlt := lt_length hx
    rw [length_append, length_singleton] at hlt
    rwa [getElem?_append_left (by omega)] at hx
  constructor
  · intro j hj hne x y hx hy
    have hy' := hfront j y hy hne
    have hlt := lt_length hy'
    have hx' := hfront (parent j) x hx (by unfold parent; omega)
    exact h j hj x y hx' hy'
  · intro j _ hch _ x y _ hy
    have hlt := lt_length hy
    rw [length_append, length_singleton] at hlt
    unfold parent at hch
    omega

/-- A heap in which one entry was replaced is in order but for its neighbours. -/
theorem Ordered.replace {entries' : List α} (h : Ordered key entries)
    (hsame : ∀ k x, k ≠ index → entries'[k]? = some x → entries[k]? = some x)
    (hsome : ∃ a, entries[index]? = some a) :
    (∀ j, 0 < j → j ≠ index → parent j ≠ index → Le key entries' (parent j) j) ∧
      ∀ j, 0 < j → parent j = index → 0 < index → Le key entries' (parent index) j := by
  obtain ⟨a, ha⟩ := hsome
  constructor
  · intro j hj hne hne' x y hx hy
    exact h j hj x y (hsame _ _ hne' hx) (hsame _ _ hne hy)
  intro j hj hch hpos x y hx hy
  have hx' := hsame (parent index) x (by unfold parent; omega) hx
  have hy' := hsame j y (by unfold parent at hch; omega) hy
  have hdown := h j hj
  rw [hch] at hdown
  exact (h index hpos x a hx' ha).trans (hdown a y ha hy')

end Order

/-! ## States that keep a heap -/

/-- How a state keeps its heap: the vector of entries, and a back-pointer with the owner of
each. -/
structure Store (σ α : Type) where
  entries : σ → List α
  withEntries : List α → σ → σ
  setPosition : α → Option Nat → σ → σ

section Operations

variable (H : Store σ α) [LinearOrder κ] (key : α → κ)

def setIndex (index : Nat) (s : σ) : σ :=
  match (H.entries s)[index]? with
  | some e => H.setPosition e (some index) s
  | none => s

def swap (left right : Nat) (s : σ) : σ :=
  setIndex H right (setIndex H left (H.withEntries (swapEntries (H.entries s) left right) s))

/-- The comparison of two positions. -/
def leAt (entries : List α) (i j : Nat) : Bool :=
  match entries[i]?, entries[j]? with
  | some a, some b => decide (key a ≤ key b)
  | _, _ => true

def ltAt (entries : List α) (i j : Nat) : Bool :=
  match entries[i]?, entries[j]? with
  | some a, some b => decide (key a < key b)
  | _, _ => false

/-- The loop moves the entry at `index` up; `index` bounds its rounds. -/
def siftUpFrom : Nat → Nat → σ → σ
  | 0, _, s => s
  | fuel + 1, index, s =>
    if index = 0 then s
    else if leAt key (H.entries s) (parent index) index then s
    else siftUpFrom fuel (parent index) (swap H (parent index) index s)

def siftUp (index : Nat) (s : σ) : σ := siftUpFrom H key index index s

def smallestChild (entries : List α) (index : Nat) : Nat :=
  let left := index * 2 + 1
  let right := left + 1
  if right < entries.length ∧ ltAt key entries right left = true then right else left

/-- The loop moves the entry at `index` down; the length of the vector bounds its rounds. -/
def siftDownFrom : Nat → Nat → σ → σ
  | 0, _, s => s
  | fuel + 1, index, s =>
    if index * 2 + 1 ≥ (H.entries s).length then s
    else
      let smallest := smallestChild key (H.entries s) index
      if leAt key (H.entries s) index smallest then s
      else siftDownFrom fuel smallest (swap H index smallest s)

def siftDown (index : Nat) (s : σ) : σ := siftDownFrom H key (H.entries s).length index s

def push (e : α) (s : σ) : σ :=
  let index := (H.entries s).length
  siftUp H key index (setIndex H index (H.withEntries (H.entries s ++ [e]) s))

/-- Remove the entry at `index`, which is a position of the heap. -/
def removeAt (index : Nat) (s : σ) : σ :=
  match (H.entries s)[index]? with
  | none => s
  | some removed =>
    let s := H.setPosition removed none (H.withEntries (swapRemove (H.entries s) index) s)
    if index < (H.entries s).length then
      let s := setIndex H index s
      if 0 < index ∧ ltAt key (H.entries s) index (parent index) = true then
        siftUp H key index s
      else siftDown H key index s
    else s

end Operations

/-! ## Back-pointers -/

/-- The state is a lens: entries and back-pointers are read as they were written.  A
back-pointer is written only for an owner that is there. -/
structure Lawful (H : Store σ α) (owner : α → ι) (position : σ → ι → Option Nat)
    (live : σ → α → Prop) : Prop where
  entries_withEntries : ∀ l s, H.entries (H.withEntries l s) = l
  entries_setPosition : ∀ e p s, H.entries (H.setPosition e p s) = H.entries s
  position_withEntries : ∀ l s, position (H.withEntries l s) = position s
  position_self : ∀ e p s, live s e → position (H.setPosition e p s) (owner e) = p
  position_of_ne : ∀ e p s o, o ≠ owner e → position (H.setPosition e p s) o = position s o
  live_withEntries : ∀ l s, live (H.withEntries l s) = live s
  live_setPosition : ∀ e p s, live (H.setPosition e p s) = live s

/-- What no operation on the heap changes. -/
def Unaffected (H : Store σ α) {β : Type} (f : σ → β) : Prop :=
  (∀ l s, f (H.withEntries l s) = f s) ∧ ∀ e p s, f (H.setPosition e p s) = f s

section Frame

variable {H : Store σ α} {β : Type} {f : σ → β} [LinearOrder κ] {key : α → κ}

variable (h : Unaffected H f)
include h

theorem Unaffected.setIndex (index : Nat) (s : σ) : f (setIndex H index s) = f s := by
  unfold IndexedHeap.setIndex
  split
  · exact h.2 _ _ _
  · rfl

theorem Unaffected.swap (left right : Nat) (s : σ) : f (swap H left right s) = f s := by
  unfold IndexedHeap.swap
  rw [h.setIndex, h.setIndex, h.1]

theorem Unaffected.siftUpFrom (fuel index : Nat) (s : σ) :
    f (siftUpFrom H key fuel index s) = f s := by
  induction fuel generalizing index s with
  | zero => rfl
  | succ fuel ih =>
    unfold IndexedHeap.siftUpFrom
    split
    · rfl
    · split
      · rfl
      · rw [ih, h.swap]

theorem Unaffected.siftDownFrom (fuel index : Nat) (s : σ) :
    f (siftDownFrom H key fuel index s) = f s := by
  induction fuel generalizing index s with
  | zero => rfl
  | succ fuel ih =>
    unfold IndexedHeap.siftDownFrom
    split
    · rfl
    · dsimp only
      split
      · rfl
      · rw [ih, h.swap]

theorem Unaffected.push (e : α) (s : σ) : f (push H key e s) = f s := by
  unfold IndexedHeap.push siftUp
  rw [h.siftUpFrom, h.setIndex, h.1]

theorem Unaffected.removeAt (index : Nat) (s : σ) : f (removeAt H key index s) = f s := by
  unfold IndexedHeap.removeAt siftUp siftDown
  split
  · rfl
  dsimp only
  split
  · split
    · rw [h.siftUpFrom, h.setIndex, h.2, h.1]
    · rw [h.siftDownFrom, h.setIndex, h.2, h.1]
  · rw [h.2, h.1]

end Frame

section Positions

variable {H : Store σ α} {owner : α → ι} {position : σ → ι → Option Nat}
  {live : σ → α → Prop} {s : σ}

/-- The back-pointers are exact, and every entry has an owner. -/
structure Located (H : Store σ α) (owner : α → ι) (position : σ → ι → Option Nat)
    (live : σ → α → Prop) (s : σ) : Prop where
  position_iff : ∀ o k, position s o = some k ↔ ∃ e, (H.entries s)[k]? = some e ∧ owner e = o
  live : ∀ e ∈ H.entries s, live s e

section

variable (h : Located H owner position live s) {e : α}
include h

theorem Located.owner_inj {i j : Nat}
    (ha : (H.entries s)[i]? = some a) (hb : (H.entries s)[j]? = some b)
    (hab : owner a = owner b) : i = j := by
  have hi := (h.position_iff (owner a) i).mpr ⟨a, ha, rfl⟩
  have hj := (h.position_iff (owner a) j).mpr ⟨b, hb, hab.symm⟩
  rw [hi] at hj
  exact Option.some.inj hj

theorem Located.position_eq {k : Nat}
    (he : (H.entries s)[k]? = some e) : position s (owner e) = some k :=
  (h.position_iff _ k).mpr ⟨e, he, rfl⟩

omit h in
/-- Every entry is pointed to, and nobody else points to an entry. -/
theorem Located.of_positions (hents : H.entries s = entries)
    (hself : ∀ k e, entries[k]? = some e → position s (owner e) = some k)
    (hnone : ∀ o, (∀ e ∈ entries, owner e ≠ o) → position s o = none)
    (hlive : ∀ e ∈ entries, live s e) : Located H owner position live s := by
  subst hents
  refine ⟨fun o k => ⟨fun hk => ?_, ?_⟩, hlive⟩
  · by_contra hnot
    rw [hnone o fun e he heq => ?_] at hk
    · cases hk
    · obtain ⟨k', hk'⟩ := mem_iff_getElem?.mp he
      have hsame := hself k' e hk'
      rw [heq, hk] at hsame
      exact hnot ⟨e, Option.some.inj hsame ▸ hk', heq⟩
  · rintro ⟨e, he, rfl⟩
    exact hself k e he

theorem Located.position_eq_none {o : ι}
    (hnone : ∀ e ∈ H.entries s, owner e ≠ o) : position s o = none := by
  cases hk : position s o with
  | none => rfl
  | some k =>
    obtain ⟨e, he, heq⟩ := (h.position_iff o k).mp hk
    exact absurd heq (hnone e (mem_of_getElem? he))

theorem Located.nodup : ((H.entries s).map owner).Nodup := by
  rw [nodup_iff_getElem?_ne_getElem?]
  intro i j hij hj heq
  rw [length_map] at hj
  rw [getElem?_map, getElem?_map, getElem?_eq_getElem (hij.trans hj), getElem?_eq_getElem hj] at heq
  have := h.owner_inj (getElem?_eq_getElem (hij.trans hj)) (getElem?_eq_getElem hj)
    (Option.some.inj heq)
  omega

end

variable (L : Lawful H owner position live)

include L

theorem entries_setIndex (index : Nat) (s : σ) : H.entries (setIndex H index s) = H.entries s := by
  unfold setIndex
  split
  · exact L.entries_setPosition _ _ _
  · rfl

theorem entries_swap (left right : Nat) (s : σ) :
    H.entries (swap H left right s) = swapEntries (H.entries s) left right := by
  unfold swap
  rw [entries_setIndex L, entries_setIndex L, L.entries_withEntries]

theorem live_unaffected : Unaffected H live := ⟨L.live_withEntries, L.live_setPosition⟩

theorem Located.swap (h : Located H owner position live s) {left right : Nat}
    (hne : left ≠ right) (ha : (H.entries s)[left]? = some a)
    (hb : (H.entries s)[right]? = some b) :
    Located H owner position live (swap H left right s) := by
  classical
  have hget := getElem?_swapEntries ha hb
  have hmem := fun e => (swapEntries_perm (H.entries s) left right).mem_iff (a := e)
  have hlocate (e : α) (k : Nat) (he : (H.entries s)[k]? = some e) : live s e :=
    h.live e (mem_of_getElem? he)
  have hpos (o : ι) : position (IndexedHeap.swap H left right s) o =
      if o = owner a then some right else if o = owner b then some left else position s o := by
    have hright : (swapEntries (H.entries s) left right)[right]? = some a := by
      rw [hget, if_pos rfl]
    have hleft : (swapEntries (H.entries s) left right)[left]? = some b := by
      rw [hget, if_neg hne, if_pos rfl]
    simp only [IndexedHeap.swap, setIndex, L.entries_withEntries, L.entries_setPosition, hleft,
      hright]
    by_cases hoa : o = owner a
    · rw [if_pos hoa, hoa, L.position_self]
      rw [L.live_setPosition, L.live_withEntries]
      exact hlocate a left ha
    · rw [if_neg hoa, L.position_of_ne _ _ _ _ hoa]
      by_cases hob : o = owner b
      · rw [if_pos hob, hob, L.position_self]
        rw [L.live_withEntries]
        exact hlocate b right hb
      · rw [if_neg hob, L.position_of_ne _ _ _ _ hob, L.position_withEntries]
  refine .of_positions (entries_swap L left right s) (fun k e he => ?_) (fun o hnone => ?_)
    fun e he => ?_
  · rw [hget] at he
    rw [hpos]
    split at he
    · cases he
      rw [if_pos rfl, ‹k = right›]
    rename_i hkr
    split at he
    · cases he
      rw [if_neg fun heq => hne (h.owner_inj ha hb heq.symm), if_pos rfl, ‹k = left›]
    · rename_i hkl
      rw [if_neg fun heq => hkl (h.owner_inj he ha heq),
        if_neg fun heq => hkr (h.owner_inj he hb heq), h.position_eq he]
  · rw [hpos, if_neg fun heq => ?_, if_neg fun heq => ?_]
    · exact h.position_eq_none fun e he => hnone e ((hmem e).mpr he)
    · exact hnone b ((hmem b).mpr (mem_of_getElem? hb)) heq.symm
    · exact hnone a ((hmem a).mpr (mem_of_getElem? ha)) heq.symm
  · rw [(live_unaffected L).swap]
    exact h.live e ((hmem e).mp he)

end Positions

/-! ## Operations -/

variable [LinearOrder κ] {H : Store σ α} {key : α → κ} {owner : α → ι}
  {position : σ → ι → Option Nat} {live : σ → α → Prop} {s : σ} {index : Nat}

theorem leAt_iff {i j : Nat} (ha : entries[i]? = some a)
    (hb : entries[j]? = some b) : leAt key entries i j = true ↔ key a ≤ key b := by
  simp only [leAt, ha, hb, decide_eq_true_eq]

theorem ltAt_iff {i j : Nat} (ha : entries[i]? = some a)
    (hb : entries[j]? = some b) : ltAt key entries i j = true ↔ key a < key b := by
  simp only [ltAt, ha, hb, decide_eq_true_eq]

/-- A heap whose back-pointers are exact. -/
structure Indexed (H : Store σ α) (key : α → κ) (owner : α → ι)
    (position : σ → ι → Option Nat) (live : σ → α → Prop) (s : σ) : Prop
    extends Located H owner position live s where
  ordered : Ordered key (H.entries s)

variable (L : Lawful H owner position live)

include L

theorem siftUpFrom_spec {fuel : Nat} (hfuel : index ≤ fuel)
    (hlocated : Located H owner position live s)
    (hord : OrderedBelow key (H.entries s) index) (hidx : index < (H.entries s).length) :
    Indexed H key owner position live (siftUpFrom H key fuel index s) ∧
      (H.entries (siftUpFrom H key fuel index s)).Perm (H.entries s) := by
  induction fuel generalizing index s with
  | zero =>
    exact ⟨⟨hlocated, hord.done fun hpos => by omega⟩, List.Perm.refl _⟩
  | succ fuel ih =>
    unfold siftUpFrom
    by_cases hzero : index = 0
    · rw [if_pos hzero]
      exact ⟨⟨hlocated, hord.done fun hpos => by omega⟩, List.Perm.refl _⟩
    rw [if_neg hzero]
    have hparent : parent index < index := by unfold parent; omega
    have hb := getElem?_eq_getElem hidx
    have ha := getElem?_eq_getElem (hparent.trans hidx)
    by_cases hle : leAt key (H.entries s) (parent index) index = true
    · rw [if_pos hle]
      refine ⟨⟨hlocated, hord.done fun _ x y hx hy => ?_⟩, List.Perm.refl _⟩
      exact (leAt_iff hx hy).mp hle
    · rw [if_neg hle]
      rw [leAt_iff ha hb, not_le] at hle
      have hswapped := hord.swap (by omega) ha hb hle
      rw [← entries_swap L] at hswapped
      obtain ⟨hdone, hperm⟩ := ih (by omega) (hlocated.swap L hparent.ne ha hb) hswapped
        (by rw [entries_swap L, length_swapEntries]; omega)
      refine ⟨hdone, hperm.trans ?_⟩
      rw [entries_swap L]
      exact swapEntries_perm _ _ _

omit L in
theorem smallestChild_spec (key : α → κ) (hleft : index * 2 + 1 < entries.length) :
    parent (smallestChild key entries index) = index ∧
      0 < smallestChild key entries index ∧ smallestChild key entries index < entries.length ∧
      ∀ j, 0 < j → parent j = index → Le key entries (smallestChild key entries index) j := by
  have hchs j (hj : 0 < j) (hch : parent j = index) :
      j = index * 2 + 1 ∨ j = index * 2 + 1 + 1 := by
    unfold parent at hch
    omega
  unfold smallestChild
  by_cases hright : index * 2 + 1 + 1 < entries.length ∧
      ltAt key entries (index * 2 + 1 + 1) (index * 2 + 1) = true
  · rw [if_pos hright]
    refine ⟨by unfold parent; omega, by omega, hright.1, fun j hj hch x y hx hy => ?_⟩
    rcases hchs j hj hch with rfl | rfl
    · exact ((ltAt_iff hx hy).mp hright.2).le
    · rw [hx] at hy
      cases hy
      exact le_refl _
  · rw [if_neg hright]
    refine ⟨by unfold parent; omega, by omega, hleft, fun j hj hch x y hx hy => ?_⟩
    rcases hchs j hj hch with rfl | rfl
    · rw [hx] at hy
      cases hy
      exact le_refl _
    · have hbnd := lt_length hy
      have hnot : ¬ltAt key entries (index * 2 + 1 + 1) (index * 2 + 1) = true :=
        fun hlt => hright ⟨hbnd, hlt⟩
      rw [ltAt_iff hy hx, not_lt] at hnot
      exact hnot

theorem siftDownFrom_spec {fuel : Nat} (hfuel : (H.entries s).length ≤ index + fuel)
    (hlocated : Located H owner position live s)
    (hord : OrderedAbove key (H.entries s) index) (hidx : index < (H.entries s).length) :
    Indexed H key owner position live (siftDownFrom H key fuel index s) ∧
      (H.entries (siftDownFrom H key fuel index s)).Perm (H.entries s) := by
  induction fuel generalizing index s with
  | zero => omega
  | succ fuel ih =>
    unfold siftDownFrom
    by_cases hleaf : index * 2 + 1 ≥ (H.entries s).length
    · rw [if_pos hleaf]
      refine ⟨⟨hlocated, hord.done fun j hj hch x y hx hy => ?_⟩, List.Perm.refl _⟩
      have hbnd := lt_length hy
      unfold parent at hch
      omega
    · rw [if_neg hleaf]
      obtain ⟨hch, hpos, hbnd, hleast⟩ := smallestChild_spec key (Nat.lt_of_not_ge hleaf)
      generalize smallestChild key (H.entries s) index = child at *
      have hlt : index < child := by unfold parent at hch; omega
      have ha := getElem?_eq_getElem hidx
      have hb := getElem?_eq_getElem hbnd
      by_cases hle : leAt key (H.entries s) index child = true
      · rw [if_pos hle]
        refine ⟨⟨hlocated, hord.done fun j hj hj' x y hx hy => ?_⟩, List.Perm.refl _⟩
        exact ((leAt_iff hx hb).mp hle).trans (hleast j hj hj' _ y hb hy)
      · rw [if_neg hle]
        rw [leAt_iff ha hb, not_le] at hle
        have hswapped := hord.swap hch hpos hleast ha hb hle
        rw [← entries_swap L] at hswapped
        have hlen : (H.entries (swap H index child s)).length = (H.entries s).length := by
          rw [entries_swap L, length_swapEntries]
        obtain ⟨hdone, hperm⟩ := ih (by omega) (hlocated.swap L hlt.ne ha hb) hswapped (by omega)
        refine ⟨hdone, hperm.trans ?_⟩
        rw [entries_swap L]
        exact swapEntries_perm _ _ _

omit [LinearOrder κ] in
theorem entries_appended (e : α) (s : σ) : H.entries (setIndex H (H.entries s).length
    (H.withEntries (H.entries s ++ [e]) s)) = H.entries s ++ [e] := by
  rw [entries_setIndex L, L.entries_withEntries]

omit [LinearOrder κ] in
theorem Located.append (h : Located H owner position live s)
    (hlive : live s e) (hnew : position s (owner e) = none) :
    Located H owner position live (setIndex H (H.entries s).length
      (H.withEntries (H.entries s ++ [e]) s)) := by
  have hlast : (H.entries s ++ [e])[(H.entries s).length]? = some e := by simp
  have hother o (ho : o ≠ owner e) : position (setIndex H (H.entries s).length
      (H.withEntries (H.entries s ++ [e]) s)) o = position s o := by
    simp only [setIndex, L.entries_withEntries, hlast, L.position_of_ne _ _ _ _ ho,
      L.position_withEntries]
  refine .of_positions (entries_appended L e s) (fun k x hx => ?_) (fun o hnone => ?_)
    fun x hx => ?_
  · by_cases hk : k < (H.entries s).length
    · rw [getElem?_append_left hk] at hx
      rw [hother _ fun heq => ?_, h.position_eq hx]
      rw [← heq, h.position_eq hx] at hnew
      cases hnew
    · rw [getElem?_append_right (Nat.le_of_not_lt hk), getElem?_singleton] at hx
      split at hx
      · cases hx
        simp only [setIndex, L.entries_withEntries, hlast]
        rw [L.position_self _ _ _ (by rw [L.live_withEntries]; exact hlive)]
        congr 1
        omega
      · cases hx
  · rw [hother o fun heq => hnone e (by simp) heq.symm]
    exact h.position_eq_none fun x hx => hnone x (mem_append_left _ hx)
  · rw [(live_unaffected L).setIndex, L.live_withEntries]
    rcases mem_append.mp hx with hx | hx
    · exact h.live x hx
    · rw [mem_singleton.mp hx]
      exact hlive

theorem push_spec (h : Indexed H key owner position live s)
    (hlive : live s e) (hnew : position s (owner e) = none) :
    Indexed H key owner position live (push H key e s) ∧
      (H.entries (push H key e s)).Perm (e :: H.entries s) := by
  have hents := entries_appended L e s
  have hord := h.ordered.append e
  rw [← hents] at hord
  obtain ⟨hdone, hperm⟩ := siftUpFrom_spec L le_rfl (h.toLocated.append L hlive hnew) hord
    (by rw [hents]; simp)
  refine ⟨hdone, hperm.trans ?_⟩
  rw [hents]
  exact perm_append_singleton e _

omit [LinearOrder κ] in
theorem Located.swapRemove (h : Located H owner position live s)
    (he : (H.entries s)[index]? = some e) :
    Located H owner position live (setIndex H index
      (H.setPosition e none (H.withEntries (swapRemove (H.entries s) index) s))) := by
  have hget := getElem?_swapRemove he
  have hlen := length_swapRemove he
  have hperm := swapRemove_perm he
  obtain ⟨entries, hents⟩ : ∃ entries, Lib.swapRemove (H.entries s) index = entries := ⟨_, rfl⟩
  simp only [hents] at hget hlen hperm ⊢
  -- an entry of the vector stood elsewhere before, at its place if it was not moved
  have hbef (k : Nat) (x : α) (hx : entries[k]? = some x) :
      ∃ k', (H.entries s)[k']? = some x ∧ k' ≠ index ∧ (k ≠ index → k' = k) ∧
        (k = index → entries.length ≤ k') := by
    have hbnd := lt_length hx
    rw [hget k hbnd] at hx
    split at hx
    · exact ⟨_, hx, by omega, fun hne => absurd ‹k = index› hne, fun _ => by omega⟩
    · rename_i hk
      exact ⟨k, hx, hk, fun _ => rfl, fun heq => absurd heq hk⟩
  have hstay (x : α) (hx : x ∈ entries) : owner x ≠ owner e := by
    obtain ⟨k, hk⟩ := mem_iff_getElem?.mp hx
    obtain ⟨k', hk', hne, -⟩ := hbef k x hk
    exact fun heq => hne (h.owner_inj hk' he heq)
  have hsame (x : α) (hx : x ∈ entries) : live s x :=
    h.live x (hperm.mem_iff.mpr (mem_cons_of_mem _ hx))
  -- the entry that was moved is pointed to anew
  have hmoved (x : α) (hx : entries[index]? = some x) : position (setIndex H index
      (H.setPosition e none (H.withEntries entries s))) (owner x) = some index := by
    simp only [setIndex, L.entries_setPosition, L.entries_withEntries, hx]
    apply L.position_self
    rw [L.live_setPosition, L.live_withEntries]
    exact hsame x (mem_of_getElem? hx)
  have hother (o : ι) (ho : ∀ x, entries[index]? = some x → o ≠ owner x) :
      position (setIndex H index (H.setPosition e none (H.withEntries entries s))) o =
        position (H.setPosition e none (H.withEntries entries s)) o := by
    unfold setIndex
    rw [L.entries_setPosition, L.entries_withEntries]
    split
    · rename_i x hx
      exact L.position_of_ne _ _ _ _ (ho x hx)
    · rfl
  have hwritten : H.entries (setIndex H index
      (H.setPosition e none (H.withEntries entries s))) = entries := by
    rw [entries_setIndex L, L.entries_setPosition, L.entries_withEntries]
  refine .of_positions hwritten (fun k x hx => ?_) (fun o hnone => ?_) fun x hx => ?_
  · by_cases hk : k = index
    · rw [hk]
      exact hmoved x (hk ▸ hx)
    · obtain ⟨k', hk', -, hkeep, -⟩ := hbef k x hx
      rw [hkeep hk] at hk'
      rw [hother, L.position_of_ne _ _ _ _ (hstay x (mem_of_getElem? hx)),
        L.position_withEntries, h.position_eq hk']
      intro y hy heq
      obtain ⟨k'', hk'', -, -, hlast⟩ := hbef index y hy
      have hsame := h.owner_inj hk' hk'' heq
      exact Nat.not_lt.mpr (hlast rfl) (hsame ▸ (lt_length hx))
  · rw [hother o fun x hx heq => hnone x (mem_of_getElem? hx) heq.symm]
    by_cases ho : o = owner e
    · rw [ho, L.position_self]
      rw [L.live_withEntries]
      exact h.live e (mem_of_getElem? he)
    · rw [L.position_of_ne _ _ _ _ ho, L.position_withEntries]
      refine h.position_eq_none fun x hx heq => ?_
      rcases mem_cons.mp (hperm.mem_iff.mp hx) with rfl | hx
      · exact ho heq.symm
      · exact hnone x hx heq
  · rw [(live_unaffected L).setIndex, L.live_setPosition, L.live_withEntries]
    exact hsame x hx

theorem removeAt_spec (h : Indexed H key owner position live s)
    (he : (H.entries s)[index]? = some e) :
    Indexed H key owner position live (removeAt H key index s) ∧
      (H.entries s).Perm (e :: H.entries (removeAt H key index s)) := by
  have hlocated := h.toLocated.swapRemove L he
  have hget := getElem?_swapRemove he
  have hlen := length_swapRemove he
  have hperm := swapRemove_perm he
  simp only [removeAt, he]
  obtain ⟨entries, hentries⟩ : ∃ entries, swapRemove (H.entries s) index = entries := ⟨_, rfl⟩
  simp only [hentries] at hlocated hget hlen hperm ⊢
  have hsame k x (hk : k ≠ index) (hx : entries[k]? = some x) :
      (H.entries s)[k]? = some x := by
    rwa [hget k (lt_length hx), if_neg hk] at hx
  obtain ⟨hoff, hacross⟩ := h.ordered.replace hsame ⟨e, he⟩
  have hshort : H.entries (H.setPosition e none (H.withEntries entries s)) = entries := by
    rw [L.entries_setPosition, L.entries_withEntries]
  generalize H.setPosition e none (H.withEntries entries s) = t at hlocated hshort ⊢
  have hents : H.entries (setIndex H index t) = entries := by
    rw [entries_setIndex L, hshort]
  rw [hshort]
  by_cases hlt : index < entries.length
  · rw [if_pos hlt]
    have hx := getElem?_eq_getElem hlt
    have hbnd : index < (H.entries (setIndex H index t)).length := by rwa [hents]
    by_cases hup : 0 < index ∧ ltAt key (H.entries (setIndex H index t)) index (parent index) = true
    · rw [if_pos hup]
      rw [hents] at hup
      have hparent : parent index < index := by
        unfold parent
        omega
      have hp := getElem?_eq_getElem (hparent.trans hlt)
      have hless := (ltAt_iff hx hp).mp hup.2
      -- The moved entry comes before its parent, so before what was below it as well.
      have hbelow : OrderedBelow key entries index := by
        refine ⟨fun j hj hne => ?_, hacross⟩
        by_cases hch : parent j = index
        · intro a b ha hb
          rw [hch] at ha
          rw [hx] at ha
          cases ha
          exact hless.le.trans (hacross j hj hch hup.1 _ b hp hb)
        · exact hoff j hj hne hch
      rw [← hents] at hbelow
      obtain ⟨hdone, hperm'⟩ := siftUpFrom_spec L le_rfl hlocated hbelow hbnd
      refine ⟨hdone, hperm.trans (List.Perm.cons e ?_)⟩
      exact (hperm'.trans (List.Perm.of_eq hents)).symm
    · rw [if_neg hup]
      rw [hents] at hup
      have habove : OrderedAbove key entries index := by
        refine ⟨fun j hj hne => ?_, hacross⟩
        by_cases hji : j = index
        · subst hji
          intro a b ha hb
          by_contra hnot
          exact hup ⟨hj, (ltAt_iff hb ha).mpr (not_le.mp hnot)⟩
        · exact hoff j hj hji hne
      rw [← hents] at habove
      obtain ⟨hdone, hperm'⟩ := siftDownFrom_spec L (Nat.le_add_left _ _) hlocated habove hbnd
      refine ⟨hdone, hperm.trans (List.Perm.cons e ?_)⟩
      exact (hperm'.trans (List.Perm.of_eq hents)).symm
  · rw [if_neg hlt]
    -- The last entry was removed: nothing moved.
    have hnone : entries[index]? = none := getElem?_eq_none (Nat.le_of_not_lt hlt)
    have hstay : setIndex H index t = t := by
      simp only [setIndex, hshort, hnone]
    rw [hstay] at hlocated
    refine ⟨⟨hlocated, ?_⟩, by rwa [hshort]⟩
    rw [hshort]
    intro j hj a b ha hb
    have hj' := lt_length hb
    have hne : j ≠ index := by omega
    have hne' : parent j ≠ index := by unfold parent; omega
    exact hoff j hj hne hne' a b ha hb

end Ginkgo.Lib.IndexedHeap
