import Ginkgo.Kernel.Writeback
import Ginkgo.Kernel.Writeback.Ledger
import Mathlib.Data.Finset.Card

/-!
# The lookup table of the write-back disk

The table names every entry that is in use under its block, so that a block is absent, clean
or dirty as its entry says.
-/

namespace Ginkgo.Kernel.Writeback.WriteBackDisk

open Ginkgo.Lib Option Function Finset

variable {δ β : Type} {s : WriteBackDisk δ β} {index : Nat} {entry entry' : CacheEntry β}

theorem probes_eq {k : Nat} (count : Nat) {slot : Nat} (hslot : slot < 2 ^ k) :
    probes (2 ^ k - 1) count slot = (List.range count).map fun i => (slot + i) % 2 ^ k := by
  induction count generalizing slot with
  | zero => rfl
  | succ count ih =>
    have hnext : (slot + 1) % 2 ^ k < 2 ^ k := Nat.mod_lt _ (Nat.two_pow_pos k)
    rw [probes, Nat.and_two_pow_sub_one_eq_mod, ih hnext, List.range_succ_eq_map, List.map_cons,
      List.map_map]
    refine congrArg₂ List.cons (Nat.mod_eq_of_lt hslot).symm (List.map_congr_left fun i _ => ?_)
    simp only [Nat.mod_add_mod]
    congr 1
    omega

theorem mem_probes {k slot i : Nat} (hslot : slot < 2 ^ k) :
    i ∈ probes (2 ^ k - 1) (2 ^ k) slot ↔ i < 2 ^ k := by
  rw [probes_eq _ hslot, List.mem_map]
  constructor
  · rintro ⟨j, -, rfl⟩
    exact Nat.mod_lt _ (Nat.two_pow_pos k)
  intro hi
  by_cases hle : slot ≤ i
  · refine ⟨i - slot, List.mem_range.mpr (by omega), ?_⟩
    rw [Nat.add_sub_of_le hle, Nat.mod_eq_of_lt hi]
  · refine ⟨i + 2 ^ k - slot, List.mem_range.mpr (by omega), ?_⟩
    rw [show slot + (i + 2 ^ k - slot) = i + 2 ^ k by omega, Nat.add_mod_right, Nat.mod_eq_of_lt hi]

/-! ## Every entry under its block -/

structure Indexed (s : WriteBackDisk δ β) : Prop where
  size : ∃ k, s.lookup.length = 2 ^ k
  mask : s.lookupMask = s.lookup.length - 1
  room : s.entries.length < s.lookup.length
  wf : Probing.WellFormed s.lookup s.path
  holds : ∀ block index, Probing.Holds s.lookup block index ↔
    ∃ entry, s.entries[index]? = some entry ∧ entry.state ≠ .vacant ∧ entry.block = block

variable (h : s.Indexed)
include h

theorem Indexed.mem_path (block i : Nat) : i ∈ s.path block ↔ i < s.lookup.length := by
  obtain ⟨k, hk⟩ := h.size
  unfold path
  rw [h.mask, hk, Nat.and_two_pow_sub_one_eq_mod]
  exact mem_probes (Nat.mod_lt _ (Nat.two_pow_pos k))

theorem Indexed.lookupEntry_eq_some_iff {block : Nat} : s.lookupEntry block = some index ↔
      ∃ entry, s.entries[index]? = some entry ∧ entry.state ≠ .vacant ∧ entry.block = block := by
  rw [← h.holds]
  exact h.wf.find_eq_some_iff

def residenceOf (entry : CacheEntry β) : Residence β :=
  match entry.state with
  | .vacant => .absent
  | .clean => .clean entry.data
  | .dirty => .dirty entry.data entry.firstSequence entry.lastSequence

def residence (s : WriteBackDisk δ β) (block : Nat) : Residence β :=
  match (s.lookupEntry block).bind (s.entries[·]?) with
  | none => .absent
  | some entry => residenceOf entry

theorem Indexed.residence_entry (hent : s.entries[index]? = some entry)
    (hused : entry.state ≠ .vacant) : s.residence entry.block = residenceOf entry := by
  unfold residence
  rw [h.lookupEntry_eq_some_iff.mpr ⟨entry, hent, hused, rfl⟩, bind_some, hent]

omit h in
theorem residence_of_lookup_none {block : Nat} (h : s.lookupEntry block = none) :
    s.residence block = .absent := by
  unfold residence
  rw [h]
  rfl

theorem Indexed.lookup_cases (block : Nat) :
    s.lookupEntry block = none ∧ s.residence block = .absent ∨
      ∃ index entry, s.lookupEntry block = some index ∧ s.entries[index]? = some entry ∧
        entry.state ≠ .vacant ∧ entry.block = block ∧ s.residence block = residenceOf entry := by
  cases hlook : s.lookupEntry block with
  | none => exact .inl ⟨rfl, residence_of_lookup_none hlook⟩
  | some index =>
    obtain ⟨entry, hent, hused, rfl⟩ := h.lookupEntry_eq_some_iff.mp hlook
    exact .inr ⟨index, entry, rfl, hent, hused, rfl, h.residence_entry hent hused⟩

theorem Indexed.entry_unique {index' : Nat}
    (hent : s.entries[index]? = some entry) (hent' : s.entries[index']? = some entry')
    (hused : entry.state ≠ .vacant) (hused' : entry'.state ≠ .vacant)
    (hblock : entry.block = entry'.block) : index = index' := by
  have hlook := h.lookupEntry_eq_some_iff.mpr ⟨entry, hent, hused, hblock⟩
  have hlook' := h.lookupEntry_eq_some_iff.mpr ⟨entry', hent', hused', rfl⟩
  exact some.inj (hlook.symm.trans hlook')

omit h in
theorem residenceOf_dirty (h : entry.state = .dirty) :
    residenceOf entry = .dirty entry.data entry.firstSequence entry.lastSequence := by
  unfold residenceOf
  rw [h]

omit h in
theorem residenceOf_clean (h : entry.state = .clean) : residenceOf entry = .clean entry.data := by
  unfold residenceOf
  rw [h]

theorem Indexed.dirty_iff {block first last : Nat} {data : β} :
    s.residence block = .dirty data first last ↔
      ∃ (index : Nat) (entry : CacheEntry β), s.entries[index]? = some entry ∧
        entry.state = .dirty ∧ entry.block = block ∧ entry.data = data ∧
          entry.firstSequence = first ∧
        entry.lastSequence = last := by
  constructor
  · intro hdirty
    rcases h.lookup_cases block with ⟨-, hnone⟩ | ⟨index, entry, -, hent, hused, hblock, heq⟩
    · rw [hnone] at hdirty
      cases hdirty
    rw [heq] at hdirty
    unfold residenceOf at hdirty
    split at hdirty
    · cases hdirty
    · cases hdirty
    · rename_i hst
      obtain ⟨hdata, hfirst, hlast⟩ := Residence.dirty.inj hdirty
      exact ⟨index, entry, hent, hst, hblock, hdata, hfirst, hlast⟩
  · rintro ⟨index, entry, hent, hst, rfl, rfl, rfl, rfl⟩
    rw [h.residence_entry hent (by rw [hst]; exact nofun)]
    exact residenceOf_dirty hst

section

variable (hent : s.entries[index]? = some entry) (hused : entry.state ≠ .vacant)
  (hused' : entry'.state ≠ .vacant) (hblock : entry'.block = entry.block)
include hent hused hused' hblock

theorem Indexed.set :
    ({ s with entries := s.entries.set index entry' } : WriteBackDisk δ β).Indexed := by
  refine ⟨h.size, h.mask, by simpa using h.room, h.wf, fun block i => ?_⟩
  refine (h.holds block i).trans ?_
  have hset := getElem?_set_iff hent entry'
  constructor
  · rintro ⟨e, he, husedE, rfl⟩
    by_cases heq : i = index
    · subst heq
      rw [hent] at he
      cases he
      exact ⟨entry', (hset i _).mpr (.inl ⟨rfl, rfl⟩), hused', hblock⟩
    · exact ⟨e, (hset i _).mpr (.inr ⟨heq, he⟩), husedE, rfl⟩
  · rintro ⟨e, he, husedE, rfl⟩
    rcases (hset i _).mp he with ⟨rfl, rfl⟩ | ⟨-, he⟩
    · exact ⟨entry, hent, hused, hblock.symm⟩
    · exact ⟨e, he, husedE, rfl⟩

theorem Indexed.residence_set :
    ({ s with entries := s.entries.set index entry' } : WriteBackDisk δ β).residence =
      Function.update s.residence entry.block (residenceOf entry') := by
  have h' := h.set hent hused hused' hblock
  have hset := getElem?_set_iff hent entry'
  have hself := h'.residence_entry ((hset index _).mpr (.inl ⟨rfl, rfl⟩)) hused'
  funext block
  by_cases heq : block = entry.block
  · subst heq
    rw [update_self, ← hblock]
    exact hself
  · rw [update_of_ne heq]
    rcases h.lookup_cases block with ⟨hlook, hnone⟩ | ⟨i, e, hlook, he, husedE, rfl, hresid⟩
    · rw [hnone]
      exact residence_of_lookup_none hlook
    have hne : i ≠ index := by
      rintro rfl
      rw [hent] at he
      exact heq (congrArg CacheEntry.block (some.inj he)).symm
    rw [hresid]
    exact h'.residence_entry ((hset i _).mpr (.inr ⟨hne, he⟩)) husedE

end

omit h in
/-- While some entry is not in use, there is room in the table. -/
theorem insertLookup_isSome (hlen : ∃ k, s.lookup.length = 2 ^ k)
    (hmask : s.lookupMask = s.lookup.length - 1) (hroom : s.entries.length < s.lookup.length)
    (hwf : Probing.WellFormed s.lookup s.path)
    (hidx : ∀ block index, Probing.Holds s.lookup block index → index < s.entries.length)
    (hinj : ∀ block block' index, Probing.Holds s.lookup block index →
      Probing.Holds s.lookup block' index → block = block') (block index : Nat) :
    ∃ lookup, Probing.insert s.lookup block index (s.path block) = some lookup := by
  obtain ⟨k, hk⟩ := hlen
  have hpath : ∀ i, i ∈ s.path block ↔ i < s.lookup.length := fun i => by
    unfold path
    rw [hmask, hk, Nat.and_two_pow_sub_one_eq_mod]
    exact mem_probes (Nat.mod_lt _ (Nat.two_pow_pos k))
  refine isSome_iff_exists.mp (Probing.insert_isSome
    (fun j hj => (hpath j).mp hj) (fun j hj => (hpath j).mpr hj) ?_)
  -- otherwise every slot names an entry of its own, and there are more slots than entries
  by_contra hfull
  push Not at hfull
  have hvalue : ∀ j < s.lookup.length, ∃ index, Probing.valueAt s.lookup j = some index ∧
      ∃ block, s.lookup[j]? = some (.occupied block index) := by
    intro j hj
    obtain ⟨block', i', hslot⟩ := hfull j hj
    exact ⟨i', by rw [Probing.valueAt, hslot], block', hslot⟩
  have hcard : (range s.entries.length).card < (range s.lookup.length).card := by
    simpa using hroom
  obtain ⟨j, hj, j', hj', hne, heq⟩ := exists_ne_map_eq_of_card_lt_of_maps_to hcard
    (f := fun j => (Probing.valueAt s.lookup j).getD 0) fun j hj => by
      obtain ⟨i', hvalue', block', hslot⟩ := hvalue j (mem_range.mp hj)
      simp only [hvalue', coe_range]
      exact hidx block' i' ⟨j, hslot⟩
  obtain ⟨index1, hvalue1, block1, hslot1⟩ := hvalue j (mem_range.mp hj)
  obtain ⟨index2, hvalue2, block2, hslot2⟩ := hvalue j' (mem_range.mp hj')
  simp only [hvalue1, hvalue2] at heq
  subst heq
  obtain rfl := hinj block1 block2 index1 ⟨j, hslot1⟩ ⟨j', hslot2⟩
  exact hne (hwf.slot_unique hslot1 hslot2)

omit h in
theorem path_eq {s' : WriteBackDisk δ β} (hmask : s'.lookupMask = s.lookupMask)
    (hlen : s'.lookup.length = s.lookup.length) : s'.path = s.path := by
  unfold path
  rw [hmask, hlen]

theorem Indexed.evict (hent : s.entries[index]? = some entry) :
    ∃ lookup, (if entry.isClean then s.removeLookup entry.block else s) =
        { s with lookup := lookup } ∧ lookup.length = s.lookup.length ∧
      Probing.WellFormed lookup s.path ∧ (entry.state ≠ .dirty → ∀ block i,
        Probing.Holds lookup block i ↔ i ≠ index ∧ Probing.Holds s.lookup block i) := by
  by_cases hclean : entry.isClean
  · refine ⟨Probing.remove s.lookup entry.block (s.path entry.block), by rw [if_pos hclean]; rfl,
      ?_, h.wf.remove _, fun _ block i => ?_⟩
    · unfold Probing.remove
      split <;> simp
    · have hst : entry.state = .clean := of_decide_eq_true hclean
      have hused : entry.state ≠ .vacant := by rw [hst]; exact nofun
      have hself := (h.holds entry.block index).mpr ⟨entry, hent, hused, rfl⟩
      rw [h.wf.holds_remove]
      refine and_congr_left fun hheld => not_congr ⟨?_, ?_⟩
      · rintro rfl
        exact h.wf.holds_unique hheld hself
      · rintro rfl
        obtain ⟨e, he, -, rfl⟩ := (h.holds block i).mp hheld
        rw [hent] at he
        rw [some.inj he]
  · refine ⟨s.lookup, by rw [if_neg hclean], rfl, h.wf, fun hfree block i => ?_⟩
    refine ⟨fun hheld => ⟨?_, hheld⟩, fun hheld => hheld.2⟩
    rintro rfl
    obtain ⟨e, he, hused, -⟩ := (h.holds block i).mp hheld
    rw [hent] at he
    cases he
    have hclean : entry.state ≠ .clean := by simpa [CacheEntry.isClean] using hclean
    cases hst : entry.state with
    | vacant => exact hused hst
    | clean => exact hclean hst
    | dirty => exact hfree hst

theorem Indexed.prepareEntry (block : Nat) (hent : s.entries[index]? = some entry)
    (hfree : entry.state ≠ .dirty) (habsent : s.lookupEntry block = none) :
    ∃ lookup, s.prepareEntry index block = (true, { s with
        lookup := lookup
        entries := s.entries.set index { entry with block := block } }) ∧
      lookup.length = s.lookup.length ∧ Probing.WellFormed lookup s.path ∧
      ∀ block' i, Probing.Holds lookup block' i ↔
        block' = block ∧ i = index ∨ i ≠ index ∧ Probing.Holds s.lookup block' i := by
  obtain ⟨lookup1, heq1, hlen1, hwf1, hholds1⟩ := h.evict hent
  have hholds1 := hholds1 hfree
  let s1 : WriteBackDisk δ β := { s with
    lookup := lookup1
    entries := s.entries.set index { entry with block := block } }
  have hpath1 : s1.path = s.path := path_eq rfl hlen1
  have hinsert : ∃ lookup, Probing.insert s1.lookup block index (s1.path block) = some lookup := by
    refine insertLookup_isSome ?_ ?_ ?_ ?_ (fun block' i hheld => ?_)
      (fun block1 block2 i hheld hheld' => ?_) block index
    · obtain ⟨k, hk⟩ := h.size
      exact ⟨k, hlen1.trans hk⟩
    · exact h.mask.trans (by rw [← hlen1])
    · simpa [s1, hlen1] using h.room
    · rw [hpath1]
      exact hwf1
    · obtain ⟨e, he, -⟩ := (h.holds block' i).mp ((hholds1 block' i).mp hheld).2
      simpa [s1] using (lt_length he)
    · obtain ⟨e, he, -, rfl⟩ := (h.holds block1 i).mp ((hholds1 block1 i).mp hheld).2
      obtain ⟨e', he', -, rfl⟩ := (h.holds block2 i).mp ((hholds1 block2 i).mp hheld').2
      rw [he] at he'
      rw [some.inj he']
  obtain ⟨lookup, hlook⟩ := hinsert
  rw [hpath1] at hlook
  have hrange : ∀ j ∈ s.path block, j < s1.lookup.length := fun j hj => by
    simp only [s1, hlen1]
    exact (h.mem_path block j).mp hj
  refine ⟨lookup, ?_, (Probing.length_insert hlook).trans hlen1, hwf1.insert hlook hrange ?_,
    fun block' i => ?_⟩
  · unfold WriteBackDisk.prepareEntry
    simp only [hent, heq1]
    have hmodify : { s with lookup := lookup1 }.modifyEntry index
        ({ · with block := block }) = s1 := by
      unfold modifyEntry
      rw [modify_eq_set hent]
    have hinserted : s1.insertLookup block index = some { s1 with lookup := lookup } := by
      unfold insertLookup
      rw [hpath1, hlook]
      rfl
    rw [hmodify, hinserted]
  · intro i hheld
    have hfound := h.wf.find_eq_some_iff.mpr ((hholds1 block i).mp hheld).2
    exact nomatch habsent.symm.trans hfound
  · rw [Probing.holds_insert hlook hrange]
    exact or_congr_right (hholds1 block' i)

/-- The blocks without the one of an entry that is given away. -/
def vacated (s : WriteBackDisk δ β) (entry : CacheEntry β) : Nat → Residence β :=
  if entry.isClean then Function.update s.residence entry.block .absent else s.residence

theorem Indexed.place (block : Nat) (hent : s.entries[index]? = some entry)
    (hfree : entry.state ≠ .dirty) (habsent : s.lookupEntry block = none)
    {f : CacheEntry β → CacheEntry β} (hused' : (f { entry with block := block }).state ≠ .vacant)
    (hblock : (f { entry with block := block }).block = block) :
    ∃ s1 s' : WriteBackDisk δ β, s.prepareEntry index block = (true, s1) ∧
      s1.modifyEntry index f = s' ∧ s' = { s with
        lookup := s'.lookup
        entries := s.entries.set index (f { entry with block := block }) } ∧ s'.Indexed ∧
      s'.residence =
        Function.update (s.vacated entry) block
          (residenceOf (f { entry with block := block })) := by
  obtain ⟨lookup, hprepare, hlen, hwf, hholds⟩ := h.prepareEntry block hent hfree habsent
  generalize hent' : f { entry with block := block } = entry' at hused' hblock
  let s' : WriteBackDisk δ β := { s with
    lookup := lookup, entries := s.entries.set index entry' }
  have hset := getElem?_set_iff hent entry'
  have hindexed : s'.Indexed := by
    refine ⟨?_, ?_, ?_, ?_, fun block' i => ?_⟩
    · obtain ⟨k, hk⟩ := h.size
      exact ⟨k, hlen.trans hk⟩
    · exact h.mask.trans (by rw [← hlen])
    · simpa [s', hlen] using h.room
    · rw [show s'.path = s.path from path_eq rfl hlen]
      exact hwf
    · rw [hholds block' i, h.holds block' i]
      constructor
      · rintro (⟨rfl, rfl⟩ | ⟨hne, e, he, hused, rfl⟩)
        · exact ⟨entry', (hset i _).mpr (.inl ⟨rfl, rfl⟩), hused', hblock⟩
        · exact ⟨e, (hset i _).mpr (.inr ⟨hne, he⟩), hused, rfl⟩
      · rintro ⟨e, he, hused, rfl⟩
        rcases (hset i _).mp he with ⟨rfl, rfl⟩ | ⟨hne, he⟩
        · exact .inl ⟨hblock, rfl⟩
        · exact .inr ⟨hne, e, he, hused, rfl⟩
  have hmodify : { s with
      lookup := lookup
      entries := s.entries.set index { entry with block := block } }.modifyEntry index f = s' := by
    unfold modifyEntry
    have hself := getElem?_set_iff hent { entry with block := block }
    rw [modify_eq_set ((hself index _).mpr (.inl ⟨rfl, rfl⟩)), hent', List.set_set]
  refine ⟨_, s', hprepare, hmodify, rfl, hindexed, funext fun block' => ?_⟩
  have hself := hindexed.residence_entry ((hset index _).mpr (.inl ⟨rfl, rfl⟩)) hused'
  by_cases heq : block' = block
  · subst heq
    rw [update_self, ← hblock]
    exact hself
  · rw [update_of_ne heq]
    -- a block other than the two keeps its entry
    have hvacated : s.vacated entry block' =
        if entry.isClean ∧ block' = entry.block then .absent else s.residence block' := by
      unfold vacated
      by_cases hclean : entry.isClean
      · by_cases hb : block' = entry.block
        · rw [if_pos hclean, if_pos ⟨hclean, hb⟩, hb, update_self]
        · rw [if_pos hclean, if_neg fun hand => hb hand.2, update_of_ne hb]
      · rw [if_neg hclean, if_neg fun hand => hclean hand.1]
    rw [hvacated]
    rcases hindexed.lookup_cases block' with ⟨hlook, hnone⟩ |
      ⟨i, e, -, he, hused, rfl, hresid⟩
    · change s'.residence block' = _
      rw [hnone]
      split
      · rfl
      rename_i hkept
      rcases h.lookup_cases block' with ⟨-, hnone'⟩ | ⟨i, e, -, he, hused, rfl, -⟩
      · exact hnone'.symm
      -- its entry would still be found
      have hne : i ≠ index := by
        rintro rfl
        rw [hent] at he
        cases he
        refine hkept ⟨?_, rfl⟩
        cases hst : entry.state with
        | vacant => exact absurd hst hused
        | clean => simp [CacheEntry.isClean, hst]
        | dirty => exact absurd hst hfree
      have hfound := hindexed.lookupEntry_eq_some_iff.mpr
        ⟨e, (hset i _).mpr (.inr ⟨hne, he⟩), hused, rfl⟩
      exact nomatch hlook.symm.trans hfound
    · change s'.residence e.block = _
      rw [hresid]
      rcases (hset i _).mp he with ⟨-, rfl⟩ | ⟨hne, he⟩
      · exact absurd hblock heq
      · rw [if_neg, h.residence_entry he hused]
        rintro ⟨hclean, hb⟩
        have hst : entry.state = .clean := of_decide_eq_true hclean
        exact hne (h.entry_unique he hent hused (by rw [hst]; exact nofun) hb)

end Ginkgo.Kernel.Writeback.WriteBackDisk
