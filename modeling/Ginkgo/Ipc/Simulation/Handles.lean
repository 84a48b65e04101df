import Ginkgo.Ipc.Simulation

/-!
# Duplicating and moving handles

Dispositions are validated against the table as it is, and the table changes only once
all of them have passed.  Distinct valid handles name distinct slots, so taking one leaves
the others valid.
-/

namespace Ginkgo.Ipc

open Ginkgo.Lib Ginkgo.Sysapi List Ipc.System HandleTable

variable {n : Nat} {s0 s s1 : System n} {t : Fin n} {table : HandleTable} {ps : List PreparedHandle}
  {d : HandleOperationDisposition} {low high : Nat} {handle : Handle}

theorem SameObjects.total (h : SameObjects s s1) : s1.frame.total = s.frame.total := by
  have hq : s1.queue = s.queue := by
    funext c side
    simp only [queue, h.channels]
  have hnext : s1.channels.next = s.channels.next := by rw [h.channels]
  simp only [Frame.total, frame, held_congr h.tables hnext hq]

theorem total_reserved (hsame : SameObjects s s1) (hgrown : ∃ k, table = (s.tables t).grow k) :
    (s1.withTable t table).frame.total = s.frame.total := by
  obtain ⟨k, rfl⟩ := hgrown
  rw [← hsame.total, ← hsame.tables]
  simp only [Frame.total, frame, s1.held_grow t k]

theorem occupiedAt_grow {table' : HandleTable} {index generation : Nat} {entry : HandleEntry}
    (hgrown : ∃ k, table' = table.grow k) (h : table.OccupiedAt index generation entry) :
    table'.OccupiedAt index generation entry := by
  obtain ⟨k, rfl⟩ := hgrown
  exact getElem?_grow_of_some k h

theorem handleDuplicate_simulated (hwf : Wf s.frame) {rights : Rights} :
    Simulated keeping (handleDuplicate t handle rights) (fun handle' _ => [.issued t handle'])
      s := by
  apply wp_bind
  apply wp_entry (.refl s)
  intro source hsource
  apply wp_guard (.refl s)
  intro hdup
  apply wp_guard (.refl s)
  intro hrights
  simp only [Bool.not_eq_true', Bool.not_eq_false] at hdup hrights
  have h1 := (Reaches.refl s).silent (.inl service_mem) (.withNextRef s (Nat.le_succ s.nextRef))
  apply wp_reserveSlot h1 transfer_mem service_mem
  intro slot generation table s2 hsame hgrown hvac h2
  obtain ⟨index, generation', hparts, hslot⟩ := entry_ok.mp hsource
  have htab : (s2.withTable t table).tables t = table := tables_withTable_self _ _ _
  have hslot2 : ((s2.withTable t table).tables t).OccupiedAt index generation' source := by
    rw [htab]
    exact occupiedAt_grow hgrown hslot
  have hvac2 : ((s2.withTable t table).tables t).VacantAt slot generation := by
    rw [htab]
    exact hvac
  have hfresh : ∀ e ∈ (s2.withTable t table).frame.total, e.ref < s.nextRef := by
    rw [total_reserved hsame hgrown]
    exact hwf.refBelow
  have hclone := Star.quiet h2 (.transfer transfer_mem
    (.clone t hslot2 hdup hrights hsame.nextRef hfresh))
  refine wp_insertReserved hvac2 ?_
  exact hclone.tail (.transfer transfer_mem (.install t hvac2))

/-! ## Validating dispositions -/

def PreparedHandle.ref? : PreparedHandle → Option Nat
  | .move _ _ => none
  | .duplicate entry => some entry.ref

/-- What validating a disposition established. -/
inductive Prepares (table : HandleTable) (d : HandleOperationDisposition) : PreparedHandle → Prop
  | move {index generation : Nat} {entry : HandleEntry}
      (hparts : handleParts d.handle = some (index, generation))
      (hslot : table.OccupiedAt index generation entry)
      (htransfer : Bitflags.contains entry.rights Rights.TRANSFER = true)
      (hrights : Bitflags.contains entry.rights d.rights = true) :
      Prepares table d (.move index d.rights)
  | duplicate {index generation : Nat} {entry : HandleEntry} {ref : Nat}
      (hparts : handleParts d.handle = some (index, generation))
      (hslot : table.OccupiedAt index generation entry)
      (hduplicate : Bitflags.contains entry.rights Rights.DUPLICATE = true)
      (hrights : Bitflags.contains entry.rights d.rights = true) :
      Prepares table d (.duplicate ⟨entry.object, d.rights, ref⟩)

theorem Prepares.occupied {p : PreparedHandle} (h : Prepares table d p) : ∃ index generation entry,
      handleParts d.handle = some (index, generation) ∧
        table.OccupiedAt index generation entry := by
  cases h with
  | move hparts hslot | duplicate hparts hslot => exact ⟨_, _, _, hparts, hslot⟩

/-- Dispositions with distinct handles, validated in order.  Clones carry increasing names
from `low` on and below `high`. -/
inductive Prepared (table : HandleTable) :
    Nat → List HandleOperationDisposition → List PreparedHandle → Nat → Prop
  | nil {low high : Nat} (hle : low ≤ high) : Prepared table low [] [] high
  | cons {low middle high : Nat} {d : HandleOperationDisposition} {p : PreparedHandle}
      {ds : List HandleOperationDisposition} {ps : List PreparedHandle}
      (hfirst : Prepares table d p) (hdistinct : ∀ d' ∈ ds, d'.handle ≠ d.handle)
      (hle : low ≤ middle) (href : ∀ ref, p.ref? = some ref → low ≤ ref ∧ ref < middle)
      (hrest : Prepared table middle ds ps high) :
      Prepared table low (d :: ds) (p :: ps) high

theorem Prepared.low_le_high {ds : List HandleOperationDisposition}
    (h : Prepared table low ds ps high) : low ≤ high := by
  induction h with
  | nil hle => exact hle
  | cons _ _ hle _ _ ih => exact hle.trans ih

/-- Only names of references are spent. -/
def System.spend (s : System n) (nextRef : Nat) : System n := { s with nextRef := nextRef }

theorem wp_prepareHandle (h : Reaches keeping s0 s) {prior : List HandleOperationDisposition}
    {Q : PreparedHandle → System n → Prop}
    (hQ : ∀ p next, (∀ d' ∈ prior, d'.handle ≠ d.handle) → Prepares (s.tables t) d p →
      s.nextRef ≤ next → (∀ ref, p.ref? = some ref → s.nextRef ≤ ref ∧ ref < next) →
      Reaches keeping s0 (s.spend next) → Q p (s.spend next)) :
    wp (prepareHandle t prior d) Q (Fails keeping s0) s := by
  unfold prepareHandle
  apply wp_guard h
  intro hprior
  have hdist : ∀ d' ∈ prior, d'.handle ≠ d.handle := by
    simpa using hprior
  apply wp_liftExcept_bind h
  rintro ⟨i, generation⟩ hvalid
  obtain ⟨hparts, entry, hslot⟩ := validatedSlot_ok.mp hvalid
  simp only [hslot]
  apply wp_guard h
  intro hrequired
  apply wp_guard h
  intro hrights
  simp only [Bool.not_eq_true', Bool.not_eq_false] at hrequired hrights
  cases hop : d.operation with
  | move =>
    rw [hop] at hrequired
    have hprep : Prepares (s.tables t) d (.move i d.rights) := .move hparts hslot hrequired hrights
    exact hQ _ s.nextRef hdist hprep le_rfl (fun _ href => by cases href) h
  | duplicate =>
    rw [hop] at hrequired
    have hprep : Prepares (s.tables t) d (.duplicate ⟨entry.object, d.rights, s.nextRef⟩) :=
      .duplicate hparts hslot hrequired hrights
    refine hQ _ (s.nextRef + 1) hdist hprep (Nat.le_succ _) ?_
      (h.silent (.inl service_mem) (.withNextRef s (Nat.le_succ s.nextRef)))
    rintro ref ⟨⟩
    exact ⟨le_rfl, Nat.lt_succ_self _⟩

theorem wp_prepareHandles (h : Reaches keeping s0 s) {prior : List HandleOperationDisposition}
    {ds : List HandleOperationDisposition} {Q : List PreparedHandle → System n → Prop}
    (hQ : ∀ ps next, Prepared (s.tables t) s.nextRef ds ps next →
      (∀ d ∈ ds, ∀ d' ∈ prior, d'.handle ≠ d.handle) →
      Reaches keeping s0 (s.spend next) → Q ps (s.spend next)) :
    wp (prepareHandles t prior ds) Q (Fails keeping s0) s := by
  induction ds generalizing s prior Q with
  | nil => exact wp_pure (hQ [] s.nextRef (.nil le_rfl) (by simp) h)
  | cons d ds ih =>
    apply wp_bind
    apply wp_prepareHandle h
    intro p next hprior hfirst hle href h1
    apply wp_bind
    apply ih h1
    intro ps next' hrest hdist h2
    refine hQ _ next' (.cons hfirst ?_ hle href hrest) ?_ h2
    · intro d' hd'
      exact Ne.symm (hdist d' hd' d (mem_append_right _ (mem_singleton_self d)))
    · intro d' hd' d'' hd''
      rcases mem_cons.mp hd' with rfl | hd'
      · exact hprior d'' hd''
      · exact hdist d' hd' d'' (mem_append_left _ hd'')

/-! ## Taking prepared handles -/

/-- The reference a prepared handle turns into, and the state that leaves. -/
inductive Took (t : Fin n) (d : HandleOperationDisposition) (s : System n) :
    PreparedHandle → HandleEntry → System n → Prop
  | move {index generation : Nat} {entry : HandleEntry}
      (hparts : handleParts d.handle = some (index, generation))
      (hslot : (s.tables t).OccupiedAt index generation entry)
      (htransfer : Bitflags.contains entry.rights Rights.TRANSFER = true)
      (hrights : Bitflags.contains entry.rights d.rights = true) :
      Took t d s (.move index d.rights) { entry with rights := d.rights }
        (s.withTable t ((s.tables t).vacate index generation))
  | duplicate {index generation : Nat} {entry : HandleEntry} {ref : Nat}
      (hparts : handleParts d.handle = some (index, generation))
      (hslot : (s.tables t).OccupiedAt index generation entry)
      (hduplicate : Bitflags.contains entry.rights Rights.DUPLICATE = true)
      (hrights : Bitflags.contains entry.rights d.rights = true) :
      Took t d s (.duplicate ⟨entry.object, d.rights, ref⟩) ⟨entry.object, d.rights, ref⟩ s

theorem wp_takePrepared {p : PreparedHandle}
    {Q : HandleEntry → System n → Prop} {E : Fault → System n → Prop}
    (h : Prepares (s.tables t) d p) (hQ : ∀ e s', Took t d s p e s' → Q e s') :
    wp (takePrepared t p) Q E s := by
  cases h with
  | move hparts hslot hxfer hrights =>
    apply wp_get
    apply wp_bind
    apply wp_expect (takeEntry_occupied hslot)
    apply wp_set_bind
    exact wp_pure (hQ _ _ (.move hparts hslot hxfer hrights))
  | duplicate hparts hslot hdup hrights =>
    exact wp_pure (hQ _ _ (.duplicate hparts hslot hdup hrights))

namespace Took

variable {d : HandleOperationDisposition} {p : PreparedHandle} {e : HandleEntry} {s' : System n}

variable (h : Took t d s p e s')
include h

section

variable {hand : List HandleEntry} {low middle : Nat}
  (hfresh : ∀ e ∈ Frame.total ⟨s, hand, [], []⟩, e.ref < low)
  (href : ∀ ref, p.ref? = some ref → low ≤ ref ∧ ref < middle)
include hfresh href

theorem star (hnext : middle ≤ s.nextRef) :
    Star (Moves keeping) ⟨s, hand, [], []⟩ [] ⟨s', hand ++ [e], [], []⟩ := by
  cases h with
  | move hparts hslot hxfer hrights =>
    exact .single (.transfer transfer_mem (.take t hslot hxfer hrights))
  | duplicate hparts hslot hdup hrights =>
    obtain ⟨hlow, hmiddle⟩ := href _ rfl
    refine .single (.transfer transfer_mem (.clone t hslot hdup hrights
      (hmiddle.trans_le hnext) fun e he => ?_))
    exact (hfresh e he).trans_le hlow

theorem fresh (hle : low ≤ middle) :
    ∀ e' ∈ Frame.total ⟨s', hand ++ [e], [], []⟩, e'.ref < middle := by
  intro e' he'
  cases h with
  | move hparts hslot hxfer hrights =>
    obtain ⟨rest, hbef, hafter⟩ := total_take hslot
    rw [hafter] at he'
    rw [hbef] at hfresh
    rcases Multiset.mem_cons.mp he' with rfl | he'
    · have hent := hfresh _ (Multiset.mem_cons_self _ _)
      exact hent.trans_le hle
    · exact (hfresh _ (Multiset.mem_cons_of_mem he')).trans_le hle
  | duplicate hparts hslot hdup hrights =>
    rw [total_clone] at he'
    rcases Multiset.mem_cons.mp he' with rfl | he'
    · exact (href _ rfl).2
    · exact (hfresh _ he').trans_le hle

end

theorem frame : ∃ table, s' = s.withTable t table := by
  cases h with
  | move => exact ⟨_, rfl⟩
  | duplicate => exact ⟨s.tables t, by simp [withTable]⟩

/-- The reference is to the object that the disposition named, with the rights it asked for. -/
theorem grant :
    ((s.tables t).find d.handle).map (fun entry => (entry.object, d.rights)) = some e.grant := by
  cases h with
  | move hparts hslot | duplicate hparts hslot =>
    rw [find_eq_some (entry_ok.mpr ⟨_, _, hparts, hslot⟩)]
    rfl

theorem slot (hne : handle ≠ d.handle) {index generation : Nat} {entry : HandleEntry}
    (hparts : handleParts handle = some (index, generation))
    (hslot : (s.tables t).OccupiedAt index generation entry) :
    (s'.tables t).OccupiedAt index generation entry := by
  cases h with
  | duplicate => exact hslot
  | @move index' generation' entry' hparts' hslot' =>
    have hidx : index ≠ index' := by
      rintro rfl
      rw [HandleTable.OccupiedAt, hslot'] at hslot
      cases hslot
      apply hne
      rw [handleFromParts_handleParts hparts, handleFromParts_handleParts hparts']
    rw [tables_withTable_self]
    unfold HandleTable.OccupiedAt
    rw [getElem?_vacate_of_ne hidx]
    exact hslot

theorem prepares {d' : HandleOperationDisposition}
    {p' : PreparedHandle} (hne : d'.handle ≠ d.handle) (hprep : Prepares (s.tables t) d' p') :
    Prepares (s'.tables t) d' p' := by
  cases hprep with
  | move hparts hslot hxfer hrights =>
    exact .move hparts (h.slot hne hparts hslot) hxfer hrights
  | duplicate hparts hslot hdup hrights =>
    exact .duplicate hparts (h.slot hne hparts hslot) hdup hrights

variable {ds : List HandleOperationDisposition} (hdist : ∀ d' ∈ ds, d'.handle ≠ d.handle)
  (hprep : Prepared (s.tables t) low ds ps high)
include hdist hprep

theorem prepared : Prepared (s'.tables t) low ds ps high := by
  induction hprep with
  | nil hle => exact .nil hle
  | cons hfirst hothers hle href _ ih =>
    refine .cons (h.prepares (hdist _ mem_cons_self) hfirst) hothers hle href ?_
    exact ih fun d' hd' => hdist d' (mem_cons_of_mem _ hd')

theorem find_other :
    ∀ d' ∈ ds, (s'.tables t).find d'.handle = (s.tables t).find d'.handle := by
  induction hprep with
  | nil => simp
  | @cons _ _ _ d1 p1 ds _ hfirst _ _ _ _ ih =>
    intro d' hd'
    rcases mem_cons.mp hd' with rfl | hd'
    · have hne := hdist d' mem_cons_self
      obtain ⟨index, generation, entry, hparts, hslot⟩ := hfirst.occupied
      rw [find_eq_some (entry_ok.mpr ⟨_, _, hparts, hslot⟩),
        find_eq_some (entry_ok.mpr ⟨_, _, hparts, h.slot hne hparts hslot⟩)]
    · exact ih (fun d2 hd2 => hdist d2 (mem_cons_of_mem _ hd2)) d' hd'

end Took

/-- The slots are distinct and can all be filled. -/
structure Open (table : HandleTable) (slots : List Nat) : Prop where
  nodup : slots.Nodup
  vacant : ∀ slot ∈ slots, ∃ generation, table.VacantAt slot generation

theorem Open.fill {slot generation : Nat} {slots : List Nat} {entry : HandleEntry}
    (h : Open table (slot :: slots)) : Open (table.fill slot generation entry) slots := by
  obtain ⟨hnotMem, hnodup⟩ := nodup_cons.mp h.nodup
  refine ⟨hnodup, fun slot' hslot' => ?_⟩
  obtain ⟨generation', hvac⟩ := h.vacant slot' (mem_cons_of_mem _ hslot')
  have hne : slot' ≠ slot := by
    rintro rfl
    exact hnotMem hslot'
  refine ⟨generation', ?_, hvac.2⟩
  rw [getElem?_fill_of_ne hne]
  exact hvac.1

theorem wp_transferPrepared {source destination : Fin n} (hne : source ≠ destination)
    {ds : List HandleOperationDisposition}
    {slots : List Nat} {E : Fault → System n → Prop}
    (hprep : Prepared (s.tables source) low ds ps high)
    (hfresh : ∀ e ∈ s.frame.total, e.ref < low) (hnext : high ≤ s.nextRef)
    (hlen : slots.length = ds.length) (hopen : Open (s.tables destination) slots) :
    wp (transferPrepared source destination ps slots)
      (fun handles s' => Star (Moves keeping) s.frame (handles.map (.issued destination))
        s'.frame ∧ handles.length = ds.length) E s := by
  induction ps generalizing s low ds slots with
  | nil =>
    cases hprep
    exact wp_pure ⟨.refl _, rfl⟩
  | cons p ps ih =>
    cases hprep with
    | @cons _ middle _ d _ ds _ hfirst hdist hle href hrest =>
    cases slots with
    | nil => simp at hlen
    | cons slot slots =>
      apply wp_bind
      apply wp_takePrepared hfirst
      intro e s1 htook
      have hnext' := hrest.low_le_high
      have htake := htook.star hfresh href (hnext'.trans hnext)
      have hrest1 := htook.prepared hdist hrest
      have hfresh1 := htook.fresh hfresh href hle
      obtain ⟨table, rfl⟩ := htook.frame
      have hdestination : (s.withTable source table).tables destination =
          s.tables destination := tables_withTable_of_ne _ _ (Ne.symm hne)
      rw [← hdestination] at hopen
      obtain ⟨generation, hvac⟩ := hopen.vacant slot mem_cons_self
      have hinst : Star (Moves keeping) s.frame
          [.issued destination (handleFromParts slot generation)]
          ((s.withTable source table).withTable destination
            (((s.withTable source table).tables destination).fill slot generation e)).frame :=
        htake.tail (.transfer transfer_mem (.install destination hvac))
      apply wp_bind
      refine wp_insertReserved hvac ?_
      apply wp_bind
      refine wp_mono (@ih _ middle _ _ ?_ ?_ hnext (Nat.succ.inj hlen) ?_) ?_ fun _ _ hfail => hfail
      · rw [tables_withTable_of_ne _ _ hne]
        exact hrest1
      · intro e' he'
        apply hfresh1
        rw [frame, total_install hvac] at he'
        exact he'
      · rw [tables_withTable_self]
        exact hopen.fill
      · rintro handles s2 ⟨hstar, hlen'⟩
        refine ⟨hinst.trans hstar, ?_⟩
        rw [length_cons, length_cons, hlen']

theorem wp_handleTransferBatchBetween (hwf : Wf s.frame) {source dst : Fin n}
    (hne : source ≠ dst) {dispositions : List HandleOperationDisposition}
    {Q : List Handle → System n → Prop}
    (hQ : ∀ handles s', Star (Moves keeping) s.frame (handles.map (.issued dst))
      s'.frame → handles.length = dispositions.length → Q handles s') :
    wp (handleTransferBatchBetween source dst dispositions) Q (Fails keeping s) s := by
  apply wp_tryVecWithCapacity (.refl s) service_mem
  intro s1 hsame1 h1
  apply wp_bind
  apply wp_prepareHandles h1
  intro prepared next hprep _ h2
  apply wp_tryVecWithCapacity h2 service_mem
  intro s3 hsame3 h3
  apply wp_bind
  apply wp_reserveSlots h3 transfer_mem service_mem
  intro slots table s4 hsame4 hrsv h4
  have htab : (s4.withTable dst table).tables source = s1.tables source := by
    rw [tables_withTable_of_ne _ _ hne, (hsame3.trans hsame4).tables]
    rfl
  rw [← htab] at hprep
  have hspend : SameObjects s1 (s1.spend next) := .withNextRef s1 hprep.low_le_high
  have hfresh : ∀ e ∈ (s4.withTable dst table).frame.total, e.ref < s1.nextRef := by
    intro e he
    rw [total_reserved hsame4 hrsv.grown, hsame3.total, hspend.total, hsame1.total] at he
    exact (hwf.refBelow e he).trans_le hsame1.nextRef
  have hopen : Open ((s4.withTable dst table).tables dst) slots := by
    rw [tables_withTable_self]
    exact ⟨hrsv.nodup, hrsv.vacant⟩
  refine wp_mono (wp_transferPrepared hne hprep hfresh
    (hsame3.nextRef.trans hsame4.nextRef) hrsv.length hopen) ?_ fun _ _ hfail => hfail
  rintro handles s' ⟨hstar, hlen⟩
  exact hQ handles s' (Star.trans h4 hstar) hlen

theorem handleMoveBetween_simulated (hwf : Wf s.frame) {source dst : Fin n}
    (hne : source ≠ dst) {rights : Rights} :
    Simulated keeping (handleMoveBetween source dst handle rights)
      (fun handle' _ => [.issued dst handle']) s := by
  apply wp_bind
  apply wp_handleTransferBatchBetween hwf hne
  intro handles s' hstar hlen
  obtain ⟨handle', rfl⟩ := length_eq_one_iff.mp hlen
  exact hstar

end Ginkgo.Ipc
