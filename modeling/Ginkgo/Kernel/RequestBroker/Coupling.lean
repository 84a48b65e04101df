import Ginkgo.Kernel.Request.Persistence
import Ginkgo.Kernel.RequestBroker

/-!
# The broker and its runtime

The two slot tables are coupled slot by slot: an entry of the broker belongs to the request
in the runtime's slot of the same index.  What became of a request after its slot was
emptied is read off the history.
-/

namespace Ginkgo.Kernel.Request.RequestBroker

open Ginkgo.Ipc Ginkgo.Lib Ginkgo.Sysapi List RequestRuntime Option

inductive Event
  | submitted (id : RequestId) (control : RequestControlId) (buffers : List PreparedRequestBuffer)
  | popped (action : RequestAction)
  | taken (id : RequestId) (buffers : List PreparedRequestBuffer)
  deriving DecidableEq

structure Publication where
  state : RequestState
  status : Status
  completedAtNs : Nat
  deriving DecidableEq

def Event.publication? (id : RequestId) : Event → Option Publication
  | .popped (.publishTerminal id' state status completedAtNs) =>
    if id' = id then some ⟨state, status, completedAtNs⟩ else none
  | _ => none

/-- The ends that were announced for a request. -/
def publications (id : RequestId) (history : List Event) : List Publication :=
  history.filterMap (Event.publication? id)

def Event.taking? (id : RequestId) : Event → Option (List PreparedRequestBuffer)
  | .taken id' buffers => if id' = id then some buffers else none
  | _ => none

/-- The buffers that were handed out for a request. -/
def takings (id : RequestId) (history : List Event) : List (List PreparedRequestBuffer) :=
  history.filterMap (Event.taking? id)

/-- What a control shows after these announcements. -/
def Reports : List Publication → RequestInfo → Prop
  | [], info => requestStateIsTerminal info.requestState = false
  | [publication], info =>
    info.requestState = some publication.state ∧ info.result = publication.status.raw ∧
      info.completedNs = publication.completedAtNs
  | _, _ => False

/-- The slot holds this entry. -/
def Holds (s : RequestBroker) (i g : Nat) (entry : BrokerEntry) : Prop :=
  s.slots[i]? = some ⟨g, false, some entry⟩

structure Paired (history : List Event) (entry : BrokerEntry)
    (r : KernelRequest RequestOperation BrokerPayload) : Prop where
  id : entry.id = r.id
  owner : entry.owner = r.owner
  attempted : entry.terminalPublicationAttempted = r.terminalPublicationDispatched
  dispatched : entry.releaseDispatched = r.resourceReleaseDispatched
  held : r.resourceState ≠ .released
  ended : r.terminalPublicationDispatched = true → isTerminal r.state = true
  filed : ∃ buffers, entry.buffers = some buffers ∧ .submitted r.id entry.control buffers ∈ history
  published : publications r.id history =
    if r.terminalPublicationDispatched then [⟨r.state, r.status, r.completedAtNs.getD 0⟩] else []
  untaken : takings r.id history = []

def Mates (history : List Event) (slot : BrokerSlot)
    (slot' : RequestSlot RequestOperation BrokerPayload) : Prop :=
  slot.generation = slot'.generation ∧ slot.retired = slot'.retired ∧
    Option.Rel (Paired history) slot.entry slot'.request

/-- The request has left the tables for good. -/
structure Gone (history : List Event) (b : Book RequestOperation BrokerPayload) (id : RequestId)
    (buffers : List PreparedRequestBuffer) : Prop where
  absent : ∀ r, b.Live r → r.id ≠ id
  issued : ¬b.Unissued id
  taken : takings id history = [buffers]
  published : publications id history ≠ []

/-- What holds of a request that was submitted. -/
structure Filed (history : List Event) (s : RequestBroker) (id : RequestId)
    (control : RequestControlId) (buffers : List PreparedRequestBuffer) : Prop where
  allocated : control < s.controls.next
  named : (s.controls.cell control).requestId = id.raw
  reported : Reports (publications id history) (s.controls.cell control).info
  whereabouts : (∃ i g entry, s.Holds i g entry ∧ entry.id = id ∧ entry.control = control ∧
    entry.buffers = some buffers) ∨ Gone history s.runtime.book id buffers

structure Coupled (history : List Event) (s : RequestBroker) : Prop where
  inv : Inv s.runtime.book
  tables : List.Forall₂ (Mates history) s.slots s.runtime.book.slots
  filed : ∀ id control buffers, .submitted id control buffers ∈ history →
    Filed history s id control buffers
  exclusive : ∀ id id' control buffers buffers', .submitted id control buffers ∈ history →
    .submitted id' control buffers' ∈ history → id = id'
  unissued : ∀ id, s.runtime.book.Unissued id →
    publications id history = [] ∧ takings id history = []

/-! ## What the quiet parts of the broker change -/

/-- The same entry with other metadata. -/
structure EntryKin (entry entry' : BrokerEntry) : Prop where
  id : entry'.id = entry.id
  owner : entry'.owner = entry.owner
  control : entry'.control = entry.control
  buffers : entry'.buffers = entry.buffers
  attempted : entry'.terminalPublicationAttempted = entry.terminalPublicationAttempted
  dispatched : entry'.releaseDispatched = entry.releaseDispatched

theorem EntryKin.refl (entry : BrokerEntry) : EntryKin entry entry := ⟨rfl, rfl, rfl, rfl, rfl, rfl⟩

theorem EntryKin.trans {entry entry' entry'' : BrokerEntry} (h : EntryKin entry entry')
    (h' : EntryKin entry' entry'') : EntryKin entry entry'' :=
  ⟨h'.id.trans h.id, h'.owner.trans h.owner, h'.control.trans h.control,
    h'.buffers.trans h.buffers, h'.attempted.trans h.attempted, h'.dispatched.trans h.dispatched⟩

def BrokerSlotKin (slot slot' : BrokerSlot) : Prop :=
  slot'.generation = slot.generation ∧ slot'.retired = slot.retired ∧
    Option.Rel EntryKin slot.entry slot'.entry

theorem BrokerSlotKin.of_map {f : BrokerEntry → BrokerEntry}
    (hf : ∀ entry, EntryKin entry (f entry))
    (slot : BrokerSlot) : BrokerSlotKin slot { slot with entry := slot.entry.map f } := by
  refine ⟨rfl, rfl, ?_⟩
  cases slot.entry with
  | none => exact .none
  | some entry => exact .some (hf entry)

theorem BrokerSlotKin.refl (slot : BrokerSlot) : BrokerSlotKin slot slot := by
  have hmap := of_map EntryKin.refl slot
  rw [Option.map_id'] at hmap
  exact hmap

theorem BrokerSlotKin.trans {slot slot' slot'' : BrokerSlot} (h : BrokerSlotKin slot slot')
    (h' : BrokerSlotKin slot' slot'') : BrokerSlotKin slot slot'' := by
  obtain ⟨hgen, hret, hent⟩ := h
  obtain ⟨hgen', hret', hent'⟩ := h'
  exact ⟨hgen'.trans hgen, hret'.trans hret,
    optionRel_comp (fun _ _ _ hkin hkin' => hkin.trans hkin') hent hent'⟩

/-- The table and the controls say the same of every request. -/
structure Stays (s s' : RequestBroker) : Prop where
  slots : List.Forall₂ BrokerSlotKin s.slots s'.slots
  next : s.controls.next ≤ s'.controls.next
  cells : ∀ control < s.controls.next,
    (s'.controls.cell control).requestId = (s.controls.cell control).requestId ∧
      (s'.controls.cell control).info = (s.controls.cell control).info

namespace Stays

variable {s s' s'' : RequestBroker}

theorem of_eq (hslots : s'.slots = s.slots) (hctrls : s'.controls = s.controls) : Stays s s' := by
  refine ⟨?_, ?_, fun control _ => ?_⟩
  · rw [hslots]
    exact forall₂_same.mpr fun slot _ => .refl slot
  · rw [hctrls]
  · rw [hctrls]
    exact ⟨rfl, rfl⟩

theorem refl (s : RequestBroker) : Stays s s := .of_eq rfl rfl

theorem trans (h : Stays s s') (h' : Stays s' s'') : Stays s s'' := by
  refine ⟨forall₂_comp (fun _ _ _ hab hbc => hab.trans hbc) h.slots h'.slots,
    h.next.trans h'.next, fun control hlt => ?_⟩
  obtain ⟨hid, hinfo⟩ := h.cells control hlt
  obtain ⟨hid', hinfo'⟩ := h'.cells control (hlt.trans_le h.next)
  exact ⟨hid'.trans hid, hinfo'.trans hinfo⟩

variable (s : RequestBroker)

theorem modifyEntry (id : RequestId) {f : BrokerEntry → BrokerEntry}
    (hf : ∀ entry, EntryKin entry (f entry)) : Stays s (s.modifyEntry id f) := by
  unfold RequestBroker.modifyEntry
  split
  · exact .refl s
  · exact ⟨forall₂_modify_self BrokerSlotKin.refl (.of_map hf) _ _, le_rfl, fun _ _ => ⟨rfl, rfl⟩⟩

theorem synchronizeInfo (id : RequestId) : Stays s (s.synchronizeInfo id) := by
  unfold RequestBroker.synchronizeInfo
  split
  · exact .refl s
  · exact .modifyEntry s id fun entry => ⟨rfl, rfl, rfl, rfl, rfl, rfl⟩

theorem synchronizeAllInfo : Stays s s.synchronizeAllInfo := by
  unfold RequestBroker.synchronizeAllInfo
  generalize range s.slots.length = indices
  induction indices generalizing s with
  | nil => exact .refl s
  | cons index rest ih =>
    rw [foldl_cons]
    refine Stays.trans ?_ (ih _)
    split
    · exact .refl s
    · exact .synchronizeInfo s _

theorem requestCancellation (control : RequestControlId) :
    Stays s (s.requestCancellation control) := by
  unfold RequestBroker.requestCancellation
  split
  · exact .refl s
  refine ⟨(Stays.refl s).slots, le_rfl, fun other _ => ?_⟩
  by_cases heq : other = control
  · subst heq
    simp
  · simp only [Heap.cell_modify_of_ne _ _ heq]
    exact ⟨trivial, trivial⟩

end Stays

theorem Paired.kin {history : List Event} {entry entry' : BrokerEntry}
    {r r' : KernelRequest RequestOperation BrokerPayload} (h : Paired history entry r)
    (hent : EntryKin entry entry') (hr : Kin r r') : Paired history entry' r' where
  id := by rw [hent.id, h.id, hr.id]
  owner := by rw [hent.owner, h.owner, hr.owner]
  attempted := by rw [hent.attempted, h.attempted, hr.published]
  dispatched := by rw [hent.dispatched, h.dispatched, hr.released]
  held := hr.held h.held
  ended hpub := by
    rw [hr.published] at hpub
    have hterm := h.ended hpub
    rw [(hr.ended hterm).1]
    exact hterm
  filed := by
    rw [hent.control, hent.buffers, hr.id]
    exact h.filed
  published := by
    rw [hr.id, h.published, hr.published]
    split
    · rename_i hpub
      obtain ⟨hst, hstatus, hcomp⟩ := hr.ended (h.ended hpub)
      rw [hst, hstatus, hcomp]
    · rfl
  untaken := by
    rw [hr.id]
    exact h.untaken

theorem Mates.kin {history : List Event} {slot slot' : BrokerSlot}
    {other other' : RequestSlot RequestOperation BrokerPayload} (h : Mates history slot other)
    (hslot : BrokerSlotKin slot slot') (hother : SlotKin other other') :
    Mates history slot' other' := by
  obtain ⟨hgen, hret, hpaired⟩ := h
  obtain ⟨hgen', hret', hent⟩ := hslot
  obtain ⟨hgen'', hret'', hreq⟩ := hother
  refine ⟨?_, ?_, ?_⟩
  · rw [hgen', hgen, hgen'']
  · rw [hret', hret, hret'']
  generalize slot.entry = entry at hpaired hent
  generalize slot'.entry = entry' at hent
  generalize other.request = r at hpaired hreq
  generalize other'.request = r' at hreq
  cases hpaired with
  | none =>
    cases hent
    cases hreq
    exact .none
  | some hpaired =>
    cases hent with
    | some hent =>
      cases hreq with
      | some hreq => exact .some (hpaired.kin hent hreq)

/-! ## The history grows -/

/-- The event says nothing of the request. -/
def Event.Spares (id : RequestId) (e : Event) : Prop :=
  e.publication? id = none ∧ e.taking? id = none

theorem publications_concat (id : RequestId) (history : List Event) (e : Event) :
    publications id (history ++ [e]) = publications id history ++ (e.publication? id).toList := by
  unfold publications
  cases he : e.publication? id <;> simp [he]

theorem takings_concat (id : RequestId) (history : List Event) (e : Event) :
    takings id (history ++ [e]) = takings id history ++ (e.taking? id).toList := by
  unfold takings
  cases he : e.taking? id <;> simp [he]

section Spared

variable {history : List Event} {e : Event} {id : RequestId}

theorem publications_spared (he : e.Spares id) :
    publications id (history ++ [e]) = publications id history := by
  rw [publications_concat, he.1, toList_none, append_nil]

theorem takings_spared (he : e.Spares id) : takings id (history ++ [e]) = takings id history := by
  rw [takings_concat, he.2, toList_none, append_nil]

theorem Paired.spared {entry : BrokerEntry} {r : KernelRequest RequestOperation BrokerPayload}
    (h : Paired history entry r) (he : e.Spares r.id) : Paired (history ++ [e]) entry r :=
  { h with
    filed := by
      obtain ⟨buffers, hbufs, hmem⟩ := h.filed
      exact ⟨buffers, hbufs, mem_append_left _ hmem⟩
    published := (publications_spared he).trans h.published
    untaken := (takings_spared he).trans h.untaken }

theorem Mates.spared {slot : BrokerSlot} {slot' : RequestSlot RequestOperation BrokerPayload}
    (h : Mates history slot slot') (he : ∀ r, slot'.request = some r → e.Spares r.id) :
    Mates (history ++ [e]) slot slot' := by
  obtain ⟨hgen, hret, hrel⟩ := h
  refine ⟨hgen, hret, ?_⟩
  generalize slot.entry = entry at hrel
  generalize slot'.request = r at hrel he
  cases hrel with
  | none => exact .none
  | some hpaired => exact .some (hpaired.spared (he _ rfl))

theorem Gone.spared {b b' : Book RequestOperation BrokerPayload}
    {buffers : List PreparedRequestBuffer} (h : Gone history b id buffers) (he : e.Spares id)
    (hissued : b'.Unissued id → b.Unissued id) (habsent : ∀ r, b'.Live r → r.id ≠ id) :
    Gone (history ++ [e]) b' id buffers where
  absent := habsent
  issued := fun hid => h.issued (hissued hid)
  taken := (takings_spared he).trans h.taken
  published := by
    rw [publications_spared he]
    exact h.published

end Spared

/-! ## Lookups -/

/-- The entry is where its name says. -/
structure Placed (s : RequestBroker) (i g : Nat) (entry : BrokerEntry) : Prop where
  holds : s.Holds i g entry
  named : entry.id = .fromParts i g
  index : i < u32Max
  generation : 1 ≤ g

namespace Placed

variable {s : RequestBroker} {i g : Nat} {entry : BrokerEntry}

variable (h : Placed s i g entry)
include h

theorem entryIndex_eq : s.entryIndex entry.id = some i := by
  obtain ⟨hvalid, hidx, hgen⟩ := RequestId.fromParts_spec h.index h.generation
  rw [← h.named] at hvalid hidx hgen
  have hent := h.holds
  unfold Holds at hent
  simp [RequestBroker.entryIndex, idSlotIndex, hvalid, hidx, hent, hgen]

theorem entry_eq : s.entry entry.id = some entry := by
  unfold RequestBroker.entry
  rw [h.entryIndex_eq]
  have hent := h.holds
  unfold Holds at hent
  simp [hent]

theorem modifyEntry_eq (f : BrokerEntry → BrokerEntry) :
    s.modifyEntry entry.id f = { s with slots := s.slots.set i ⟨g, false, some (f entry)⟩ } := by
  unfold RequestBroker.modifyEntry
  rw [h.entryIndex_eq]
  simp only [modify_eq_set h.holds, map_some]

theorem set {s' : RequestBroker} {entry' : BrokerEntry}
    (hslots : s'.slots = s.slots.set i ⟨g, false, some entry'⟩) (hid : entry'.id = entry.id) :
    Placed s' i g entry' := by
  refine ⟨?_, hid.trans h.named, h.index, h.generation⟩
  unfold Holds
  rw [hslots]
  exact (getElem?_set_iff h.holds _ _ _).mpr (.inl ⟨rfl, rfl⟩)

end Placed

namespace Coupled

variable {history : List Event} {s s' : RequestBroker} {i g : Nat} {entry : BrokerEntry}
  {r : KernelRequest RequestOperation BrokerPayload}

section

variable (h : Coupled history s)
include h

theorem paired (hent : s.Holds i g entry) :
    ∃ r, s.runtime.book.Holds i g r ∧ Paired history entry r := by
  obtain ⟨slot, hslot, hgen, hret, hreq⟩ := forall₂_getElem? h.tables hent
  obtain ⟨generation, retired, request⟩ := slot
  obtain rfl : g = generation := hgen
  obtain rfl : false = retired := hret
  cases hreq with
  | some hpaired => exact ⟨_, hslot, hpaired⟩

theorem entry_of_holds (hr : s.runtime.book.Holds i g r) :
    ∃ entry, s.Holds i g entry ∧ Paired history entry r := by
  obtain ⟨slot, hslot, hgen, hret, hent⟩ := forall₂_getElem?_right h.tables hr
  obtain ⟨generation, retired, entry⟩ := slot
  obtain rfl : generation = g := hgen
  obtain rfl : retired = false := hret
  cases hent with
  | some hpaired => exact ⟨_, hslot, hpaired⟩

theorem tidy : s.runtime.book.Tidy := by
  rintro r ⟨i, g, hr⟩
  obtain ⟨entry, -, hpaired⟩ := h.entry_of_holds hr
  exact hpaired.held

theorem placed (hent : s.Holds i g entry) : Placed s i g entry := by
  obtain ⟨r, hr, hpaired⟩ := h.paired hent
  exact ⟨hent, hpaired.id.trans (h.inv.slots.id_eq hr), h.inv.slots.index_lt hr,
    (h.inv.slots.generation i _ hr).1⟩

theorem entry_cases (id : RequestId) :
    s.entry id = none ∨ ∃ i g entry, s.Holds i g entry ∧ entry.id = id := by
  unfold RequestBroker.entry
  cases hidx : s.entryIndex id with
  | none => exact .inl rfl
  | some index =>
    refine .inr ?_
    unfold RequestBroker.entryIndex at hidx
    split at hidx
    · cases hidx
    rename_i i' hfound
    cases hslot : s.slots[i']? with
    | none => simp [hslot] at hidx
    | some slot =>
      simp only [hslot, Option.ite_none_right_eq_some, Bool.and_eq_true, Option.any_eq_true,
        decide_eq_true_eq, Option.some.injEq] at hidx
      obtain ⟨⟨-, entry, hent, hid⟩, rfl⟩ := hidx
      obtain ⟨generation, retired, found⟩ := slot
      obtain rfl : found = some entry := hent
      obtain ⟨slot', hslot', -, hret, hreq⟩ := forall₂_getElem? h.tables hslot
      generalize hfound : slot'.request = request at hreq
      cases hreq with
      | some hpaired =>
        obtain ⟨hfree, -⟩ := h.inv.slots.named i' slot' _ hslot' hfound
        obtain rfl : retired = false := hret.trans hfree
        exact ⟨i', generation, entry, hslot, hid⟩

theorem quiet (hinv : Inv s'.runtime.book)
    (hkeeps : s.runtime.book.Keeps s'.runtime.book) (hstays : Stays s s') : Coupled history s' := by
  refine ⟨hinv, ?_, fun id control buffers hmem => ?_, h.exclusive, fun id hid =>
    h.unissued id (hkeeps.unissued hid)⟩
  · have hleft : List.Forall₂ (fun slot' other => ∃ slot, BrokerSlotKin slot slot' ∧
        Mates history slot other) s'.slots s.runtime.book.slots :=
      forall₂_comp (fun _ slot _ hslot hmates => ⟨slot, hslot, hmates⟩) hstays.slots.flip h.tables
    refine forall₂_comp (fun slot' other other' hslot hother => ?_) hleft hkeeps
    obtain ⟨slot, hslot, hmates⟩ := hslot
    exact hmates.kin hslot hother
  · have hfiled := h.filed id control buffers hmem
    obtain ⟨hnamed, hinfo⟩ := hstays.cells control hfiled.allocated
    refine ⟨hfiled.allocated.trans_le hstays.next, hnamed.trans hfiled.named, ?_, ?_⟩
    · rw [hinfo]
      exact hfiled.reported
    rcases hfiled.whereabouts with ⟨i, g, entry, hent, hid, hctrl, hbufs⟩ | hgone
    · obtain ⟨slot', hslot', hgen, hret, hrel⟩ := forall₂_getElem? hstays.slots hent
      obtain ⟨generation, retired, found⟩ := slot'
      obtain rfl : generation = g := hgen
      obtain rfl : retired = false := hret
      cases hrel with
      | some hkin =>
        exact .inl ⟨i, generation, _, hslot', hkin.id.trans hid, hkin.control.trans hctrl,
          hkin.buffers.trans hbufs⟩
    · refine .inr ⟨fun r' hr' => ?_, fun hid => hgone.issued (hkeeps.unissued hid), hgone.taken,
        hgone.published⟩
      obtain ⟨i, g, hr'⟩ := hr'
      obtain ⟨r, hr, hkin⟩ := hkeeps.holds hr'
      rw [hkin.id]
      exact hgone.absent r ⟨i, g, hr⟩

theorem unique {i' g' : Nat} {entry' : BrokerEntry}
    (hent : s.Holds i g entry) (hent' : s.Holds i' g' entry') (hid : entry'.id = entry.id) :
    i' = i ∧ entry' = entry := by
  have hplaced := h.placed hent
  have hplaced' := h.placed hent'
  rw [hplaced.named, hplaced'.named] at hid
  obtain ⟨rfl, rfl⟩ := RequestId.fromParts_inj hplaced'.index hplaced.index hid
  unfold Holds at hent hent'
  rw [hent] at hent'
  cases hent'
  exact ⟨rfl, rfl⟩

theorem paired_of_holds (hent : s.Holds i g entry)
    (hr : s.runtime.book.Holds i g r) : Paired history entry r := by
  obtain ⟨x, hx, hpaired⟩ := h.paired hent
  unfold Book.Holds at hr hx
  rw [hr] at hx
  cases hx
  exact hpaired

theorem mates_elsewhere {e : Event} (hr : s.runtime.book.Holds i g r)
    (hspares : ∀ id, id ≠ r.id → e.Spares id) (j : Nat) (slot : BrokerSlot)
    (slot' : RequestSlot RequestOperation BrokerPayload) (hne : j ≠ i)
    (hslot' : s.runtime.book.slots[j]? = some slot') (hmates : Mates history slot slot') :
    Mates (history ++ [e]) slot slot' := by
  refine hmates.spared fun x hx => hspares x.id fun heq => hne ?_
  obtain ⟨generation, retired, request⟩ := slot'
  obtain rfl : request = some x := hx
  obtain ⟨rfl, hname⟩ := h.inv.slots.named j _ x hslot' rfl
  rw [heq, h.inv.slots.id_eq hr] at hname
  exact (RequestId.fromParts_inj (h.inv.slots.index_lt hr) (h.inv.slots.index_lt hslot')
    hname).1.symm

end

theorem holds_elsewhere {slot' : BrokerSlot} {j g' : Nat}
    {found : BrokerEntry} (hent : s.Holds i g entry) (hfound : s.Holds j g' found)
    (hid : found.id ≠ entry.id) (hslots : s'.slots = s.slots.set i slot') :
    s'.Holds j g' found := by
  unfold Holds
  rw [hslots]
  refine (getElem?_set_iff hent _ _ _).mpr (.inr ⟨?_, hfound⟩)
  rintro rfl
  unfold Holds at hfound hent
  rw [hent] at hfound
  cases hfound
  exact hid rfl

variable (h : Coupled history s)
include h

section

variable {e : Event} (hr : s.runtime.book.Holds i g r) (hspares : ∀ id, id ≠ r.id → e.Spares id)
  (hold : ∀ id control buffers, e ≠ .submitted id control buffers) (hinv : Inv s'.runtime.book)
include hr hspares hold hinv

/-- An event about one request. -/
theorem step (hunissued : ∀ id, s'.runtime.book.Unissued id → s.runtime.book.Unissued id)
    (htables : List.Forall₂ (Mates (history ++ [e])) s'.slots s'.runtime.book.slots)
    (hfiled : ∀ id control buffers, .submitted id control buffers ∈ history →
      Filed history s id control buffers → Filed (history ++ [e]) s' id control buffers) :
    Coupled (history ++ [e]) s' := by
  have hbef {id control buffers} (hmem : .submitted id control buffers ∈ history ++ [e]) :
      .submitted id control buffers ∈ history := by
    rcases mem_append.mp hmem with hmem | hmem
    · exact hmem
    · exact absurd (mem_singleton.mp hmem).symm (hold id control buffers)
  refine ⟨hinv, htables, fun id control buffers hmem => ?_,
    fun _ _ _ _ _ hmem hmem' => h.exclusive _ _ _ _ _ (hbef hmem) (hbef hmem'), fun id hid => ?_⟩
  · exact hfiled id control buffers (hbef hmem) (h.filed id control buffers (hbef hmem))
  · have hfresh := hunissued id hid
    have hspared := hspares id fun heq => h.inv.not_live_of_unissued hfresh ⟨i, g, hr⟩ heq.symm
    rw [publications_spared hspared, takings_spared hspared]
    exact h.unissued id hfresh

/-- An event about one request: it marks the request and its entry, and perhaps its control. -/
theorem mark {entry' : BrokerEntry} {r' : KernelRequest RequestOperation BrokerPayload}
    (hent : s.Holds i g entry) (hid : r'.id = r.id)
    (hpaired : Paired (history ++ [e]) entry' r') (hctrl : entry'.control = entry.control)
    (hbufs : entry'.buffers = entry.buffers)
    (hkeeps : (s.runtime.book.put i g r').Keeps s'.runtime.book)
    (hslots : s'.slots = s.slots.set i ⟨g, false, some entry'⟩)
    (hnext : s'.controls.next = s.controls.next)
    (hcells : ∀ control, (s'.controls.cell control).requestId =
      (s.controls.cell control).requestId ∧ (control ≠ entry.control →
      (s'.controls.cell control).info = (s.controls.cell control).info))
    (hreported : Reports (publications r.id (history ++ [e]))
      (s'.controls.cell entry.control).info) : Coupled (history ++ [e]) s' := by
  have hpaired0 := h.paired_of_holds hent hr
  have holder : ∀ id, s'.runtime.book.Unissued id → s.runtime.book.Unissued id := fun id hid' =>
    unissued_of_put hr rfl (hkeeps.unissued hid')
  have hlive : ∀ x, s'.runtime.book.Live x → x.id = r.id ∨ ∃ y, s.runtime.book.Live y ∧
      x.id = y.id := by
    rintro x ⟨j, g', hx⟩
    obtain ⟨y, hy, hkin⟩ := hkeeps.holds hx
    rcases ((h.inv.replaced hr hid).iff y).mp ⟨j, g', hy⟩ with rfl | ⟨hy, -⟩
    · exact .inl (hkin.id.trans hid)
    · exact .inr ⟨y, hy, hkin.id⟩
  refine h.step hr hspares hold hinv holder ?_ fun id control buffers hmem hfiled => ?_
  · rw [hslots]
    have hmates : Mates (history ++ [e]) ⟨g, false, some entry'⟩ ⟨g, false, some r'⟩ :=
      ⟨rfl, rfl, .some hpaired⟩
    exact forall₂_comp
      (fun slot _ _ hmates hkin => hmates.kin (.refl slot) hkin)
      (forall₂_set h.tables (fun j slot slot' hne _ =>
        h.mates_elsewhere hr hspares j slot slot' hne)
        hmates) hkeeps
  · by_cases heq : id = r.id
    · subst heq
      rcases hfiled.whereabouts with ⟨j, g', found, hfound, hname, rfl, hfoundBufs⟩ | hgone
      · obtain ⟨rfl, rfl⟩ := h.unique hent hfound (hname.trans hpaired0.id.symm)
        have hplaced := (h.placed hent).set hslots (by rw [hpaired.id, hid, hpaired0.id])
        refine ⟨by rw [hnext]; exact hfiled.allocated, (hcells _).1.trans hfiled.named, hreported,
          .inl ⟨j, g, entry', hplaced.holds, hpaired.id.trans hid, hctrl, hbufs.trans hfoundBufs⟩⟩
      · exact absurd rfl (hgone.absent r ⟨i, g, hr⟩)
    · obtain ⟨ownBuffers, -, hown⟩ := hpaired0.filed
      have hother : control ≠ entry.control := by
        rintro rfl
        exact heq (h.exclusive _ _ _ _ _ hmem hown)
      refine ⟨by rw [hnext]; exact hfiled.allocated, (hcells _).1.trans hfiled.named, ?_, ?_⟩
      · rw [publications_spared (hspares id heq), (hcells control).2 hother]
        exact hfiled.reported
      rcases hfiled.whereabouts with ⟨j, g', found, hfound, hname, hrest⟩ | hgone
      · refine .inl ⟨j, g', found, holds_elsewhere hent hfound ?_ hslots, hname, hrest⟩
        rw [hname, hpaired0.id]
        exact heq
      · refine .inr (hgone.spared (hspares id heq) (holder id) fun x hx hname => ?_)
        rcases hlive x hx with hx | ⟨y, hy, hx⟩
        · exact heq (hname.symm.trans hx)
        · exact hgone.absent y hy (hx.symm.trans hname)

end

/-- An event that takes a request out of both tables. -/
theorem empty {buffers : List PreparedRequestBuffer} {slot' : BrokerSlot}
    (hent : s.Holds i g entry) (hr : s.runtime.book.Holds i g r)
    (hbufs : entry.buffers = some buffers) (hpub : r.terminalPublicationDispatched = true)
    (hinv : Inv s'.runtime.book)
    (hvacated : s'.runtime.book.slots = s.runtime.book.slots.set i (.vacated g))
    (hslots : s'.slots = s.slots.set i slot')
    (hslot' : ∀ history, Mates history slot' (.vacated g)) (hctrls : s'.controls = s.controls) :
    Coupled (history ++ [.taken r.id buffers]) s' := by
  have hpaired := h.paired_of_holds hent hr
  have hspares : ∀ id, id ≠ r.id → (Event.taken r.id buffers).Spares id := fun id hne =>
    ⟨rfl, if_neg (Ne.symm hne)⟩
  have holder : ∀ id, s'.runtime.book.Unissued id → s.runtime.book.Unissued id := fun id hid =>
    unissued_of_vacated hr hvacated hid
  have hlive : ∀ x, s'.runtime.book.Live x → s.runtime.book.Live x ∧ x.id ≠ r.id := by
    intro x hx
    refine (h.inv.slots.live_clear hr (vacated_request g) s.runtime.diagnostics x).mp ?_
    unfold Book.Live Book.Holds at hx ⊢
    rw [hvacated] at hx
    exact hx
  refine h.step hr hspares nofun hinv holder ?_ fun id control buffers' hmem hfiled => ?_
  · rw [hslots, hvacated]
    exact forall₂_set h.tables
      (fun j slot slot' hne _ => h.mates_elsewhere hr hspares j slot slot' hne) (hslot' _)
  · have hreported : publications id (history ++ [.taken r.id buffers]) =
        publications id history := by
      rw [publications_concat]
      exact append_nil _
    refine ⟨by rw [hctrls]; exact hfiled.allocated, by rw [hctrls]; exact hfiled.named,
      by rw [hctrls, hreported]; exact hfiled.reported, ?_⟩
    rcases hfiled.whereabouts with ⟨j, g', found, hfound, hname, hctrl, hfoundBufs⟩ | hgone
    · by_cases heq : id = r.id
      · subst heq
        obtain ⟨rfl, rfl⟩ := h.unique hent hfound (hname.trans hpaired.id.symm)
        obtain rfl : buffers = buffers' := some.inj (hbufs.symm.trans hfoundBufs)
        refine .inr ⟨fun x hx => (hlive x hx).2, fun hid => ?_, ?_, ?_⟩
        · exact h.inv.not_live_of_unissued (holder _ hid) ⟨j, g, hr⟩ rfl
        · rw [takings_concat, hpaired.untaken]
          simp [Event.taking?]
        · rw [hreported, hpaired.published, hpub]
          simp
      · refine .inl ⟨j, g', found, holds_elsewhere hent hfound ?_ hslots, hname, hctrl, hfoundBufs⟩
        rw [hname, hpaired.id]
        exact heq
    · have heq : id ≠ r.id := fun heq => hgone.absent r ⟨i, g, hr⟩ heq.symm
      exact .inr (hgone.spared (hspares id heq) (holder id) fun x hx =>
        hgone.absent x (hlive x hx).1)

theorem nextVacantSlot_eq :
    s.nextVacantSlot = s.runtime.slots.findIdx? RequestRuntime.isVacant := by
  have hvac : ∀ slot slot', Mates history slot slot' → slot.isVacant = isVacant slot' := by
    rintro slot slot' ⟨-, hret, hrel⟩
    unfold BrokerSlot.isVacant isVacant
    rw [hret]
    generalize slot.entry = entry at hrel
    generalize slot'.request = request at hrel
    cases hrel <;> rfl
  unfold RequestBroker.nextVacantSlot
  rw [findIdx?_forall₂ hvac h.tables, book, findIdx?_map]
  congr 1
  funext slot
  cases hreq : slot.request <;> simp [isVacant, RequestSlot.erase]

variable {runtime' : RequestRuntime RequestOperation BrokerPayload}
  {sub : RequestSubmission RequestOperation BrokerPayload} {now slotIndex : Nat} {id : RequestId}
  (hone : s.runtime.submitOne sub now = some (id, runtime'))
  (hslot : s.nextVacantSlot = some slotIndex)
include hone hslot

/-- The runtime gives the name that the broker expects. -/
theorem expectedId_eq : s.expectedId slotIndex = id := by
  obtain ⟨i, g, hi, hfree, rfl, -⟩ := submitOne_fills hone
  rw [h.nextVacantSlot_eq, hi] at hslot
  obtain rfl := some.inj hslot
  have hbook : s.runtime.book.slots[i]? = some ⟨g, false, none⟩ := by
    simp [book, hfree, RequestSlot.erase]
  obtain ⟨slot, hslot, hgen, -⟩ := forall₂_getElem?_right h.tables hbook
  unfold RequestBroker.expectedId
  rw [hslot]
  exact congrArg (RequestId.fromParts i) hgen

/-- A new entry beside the new request.  The control was allocated for it and serves no
other request. -/
theorem install (hinv : Inv runtime'.book) {control : RequestControlId} (info : RequestInfo)
    {request : PreparedBrokerRequest}
    (howner : sub.owner = request.owner) (halloc : control < s.controls.next)
    (hnamed : (s.controls.cell control).requestId = id.raw)
    (hopen : requestStateIsTerminal (s.controls.cell control).info.requestState = false)
    (hunused : ∀ id' buffers, .submitted id' control buffers ∉ history) :
    Coupled (history ++ [.submitted id control request.buffers])
      (({ s with runtime := runtime' } : RequestBroker).install slotIndex id control info
        request) := by
  obtain ⟨i, g, hi, hfree, hid, hslots⟩ := submitOne_fills hone
  rw [h.nextVacantSlot_eq, hi] at hslot
  obtain rfl := some.inj hslot
  have hbook : s.runtime.book.slots[i]? = some ⟨g, false, none⟩ := by
    simp [book, hfree, RequestSlot.erase]
  obtain ⟨slot, hvac, hgen, hret, hent⟩ := forall₂_getElem?_right h.tables hbook
  obtain ⟨generation, retired, entry⟩ := slot
  obtain rfl : generation = g := hgen
  obtain rfl : retired = false := hret
  cases hent
  have hnew : s.runtime.book.Unissued id := ⟨i, generation, _, hid, hbook, Or.inr ⟨rfl, rfl, rfl⟩⟩
  obtain ⟨hunpublished, huntaken⟩ := h.unissued id hnew
  have hspares : ∀ id', (Event.submitted id control request.buffers).Spares id' :=
    fun _ => ⟨rfl, rfl⟩
  have holder : ∀ id', runtime'.book.Unissued id' → s.runtime.book.Unissued id' := by
    intro id'
    refine unissued_of_set hbook (fun g' hfuture => ?_) hslots
    rcases hfuture with hlt | ⟨-, hnone, -⟩
    · exact Or.inl hlt
    · cases hnone
  have hlive : ∀ x, runtime'.book.Live x → x.id = id ∨ s.runtime.book.Live x := by
    rintro x ⟨j, g', hx⟩
    unfold Book.Holds at hx
    rw [hslots] at hx
    rcases (getElem?_set_iff hbook _ _ _).mp hx with ⟨-, heq⟩ | ⟨-, hx⟩
    · cases heq
      exact Or.inl rfl
    · exact Or.inr ⟨j, g', hx⟩
  unfold RequestBroker.install
  simp only [modify_eq_set hvac]
  refine ⟨hinv, ?_, fun id' control' buffers' hmem => ?_,
    fun id1 id2 control' buffers1 buffers2 h1 h2 => ?_,
    fun id' hid' => ?_⟩
  · simp only [hslots]
    refine forall₂_set h.tables
      (fun _ _ _ _ _ _ hmates => hmates.spared fun r _ => hspares r.id) ⟨rfl, rfl, .some ?_⟩
    refine ⟨rfl, howner.symm, rfl, rfl, by rintro ⟨⟩, by rintro ⟨⟩,
      ⟨_, rfl, mem_append_right _ mem_cons_self⟩, ?_, ?_⟩
    · exact (publications_spared (hspares _)).trans hunpublished
    · exact (takings_spared (hspares _)).trans huntaken
  · rcases mem_append.mp hmem with hmem | hmem
    · have hfiled := h.filed id' control' buffers' hmem
      refine ⟨hfiled.allocated, hfiled.named, ?_, ?_⟩
      · rw [publications_spared (hspares _)]
        exact hfiled.reported
      rcases hfiled.whereabouts with ⟨j, g', entry, hent, hrest⟩ | hgone
      · refine Or.inl ⟨j, g', entry, ?_, hrest⟩
        refine (getElem?_set_iff hvac _ _ _).mpr (Or.inr ⟨?_, hent⟩)
        rintro rfl
        unfold Holds at hent
        rw [hvac] at hent
        cases hent
      · refine Or.inr (hgone.spared (hspares _) (holder _) fun x hx => ?_)
        rcases hlive x hx with heq | hx
        · rintro rfl
          exact hgone.issued (heq ▸ hnew)
        · exact hgone.absent x hx
    · cases mem_singleton.mp hmem
      refine ⟨halloc, hnamed, ?_, Or.inl ⟨i, generation, _,
        (getElem?_set_iff hvac _ _ _).mpr (Or.inl ⟨rfl, rfl⟩), rfl, rfl, rfl⟩⟩
      rw [publications_spared (hspares _), hunpublished]
      exact hopen
  · rcases mem_append.mp h1 with h1 | h1 <;> rcases mem_append.mp h2 with h2 | h2
    · exact h.exclusive id1 id2 control' buffers1 buffers2 h1 h2
    · cases mem_singleton.mp h2
      exact absurd h1 (hunused _ _)
    · cases mem_singleton.mp h1
      exact absurd h2 (hunused _ _)
    · cases mem_singleton.mp h1
      cases mem_singleton.mp h2
      rfl
  · rw [publications_spared (hspares _), takings_spared (hspares _)]
    exact h.unissued id' (holder id' hid')

end Coupled

end Ginkgo.Kernel.Request.RequestBroker
